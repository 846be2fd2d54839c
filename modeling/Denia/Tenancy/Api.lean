/-
  Denia.Tenancy.Api — the requests that WRITE the tables of `Denia.Tenancy.Tables`
  (`src/api/{projects,members,users,services,domains,registries,jobs,deployments}.rs`,
  `src/registry/api_v2.rs`), each run to its end, with the role checks of
  `src/auth/guards.rs`.

  A handler is a program over the database: a check that fails ends it with what it has
  written so far (`put_service` refuses a hostname after the service row is stored).
  `create_deployment` answers before its pipeline has run: the promotion is a step of its
  own, at any time later, for the service that the request read.

  Main result: `handle_effect`, everything a successful request can write, with the checks it
  has passed; the theorems of this directory are case analyses over `Effect`.
-/
import Denia.Deploy.Api
import Denia.Lib.Hoare
import Denia.Lib.Run
import Denia.Tenancy.Tables

namespace Denia.Tenancy

open Lib Verification

/-- `Principal`. -/
structure Principal where
  userId : Option Uuid
  isSuperAdmin : Bool
  deriving DecidableEq

/-- `Principal::super_admin()`: the bearer of the admin token. -/
def Principal.superAdmin : Principal := ⟨none, true⟩

/-- `ApiError`. -/
inductive ApiError where
  | repo (error : RepoError)
  | badRequest (reason : String)
  | notFound (reason : String)
  | forbidden (reason : String)
  | conflict (reason : String)
  deriving DecidableEq

/-- The configuration the handlers read, and the checks whose code is not modelled: of an
image's host (`validate_legacy_image_registry_host`), of a registry's endpoint
(`validate_registry_endpoint`) and of a cron schedule. -/
structure ApiConfig where
  controlDomain : Option String
  acmeEmail : Bool
  ageRecipient : Bool
  checkImageHost : String → Except String Unit
  checkEndpoint : String → Except String Unit
  scheduleParses : String → Bool

/-- A handler. -/
abbrev Api (α : Type) := Prog Database ApiError α

/-! ## §1. Roles. -/

/-- `ensure_role`, with the error a refusal becomes. -/
def ensureRoleOr (refusal : String → ApiError) (principal : Principal) (projectId : Uuid)
    (min : Role) : Api PUnit :=
  if principal.isSuperAdmin then pure ⟨⟩
  else do
    let userId ← found principal.userId (refusal "authenticated user required")
    let db ← get
    let role ← found (db.roleFor userId projectId) (refusal "forbidden")
    ensure (min ≤ role) (refusal "forbidden")

/-- `ensure_role`. -/
def ensureRole : Principal → Uuid → Role → Api PUnit := ensureRoleOr .forbidden

/-- `ensure_role_or_not_found`. -/
def ensureRoleOrNotFound (principal : Principal) (projectId : Uuid) (min : Role)
    (message : String) : Api PUnit :=
  ensureRoleOr (fun _ => .notFound message) principal projectId min

/-- What `ensure_role` lets through. -/
def Database.Authorized (db : Database) (principal : Principal) (projectId : Uuid) (min : Role) :
    Prop :=
  principal.isSuperAdmin = true ∨
    ∃ userId role, principal.userId = some userId ∧ db.roleFor userId projectId = some role ∧
      min ≤ role

variable {projectId : Uuid} {db db' : Database} {r : PUnit} {message : String}
  {f : Database → Except RepoError Database}

section
variable {refusal : String → ApiError} {principal : Principal} {min : Role} {α : Type}
  {g : PUnit → Api α} {a : α}

theorem returns_ensureRoleOr : Returns (ensureRoleOr refusal principal projectId min) db r db' ↔
      db.Authorized principal projectId min ∧ db' = db := by
  unfold ensureRoleOr Database.Authorized
  cases hsuper : principal.isSuperAdmin
  · simp only [Bool.false_eq_true, if_false, returns_get_bind, returns_found_bind, returns_ensure,
      false_or]
    constructor
    · rintro ⟨userId, huser, role, hrole, hmin, hdb⟩
      exact ⟨⟨userId, role, huser, hrole, hmin⟩, hdb⟩
    · rintro ⟨⟨userId, role, huser, hrole, hmin⟩, hdb⟩
      exact ⟨userId, huser, role, hrole, hmin, hdb⟩
  · simp

/-- A role check that has passed. -/
theorem returns_ensureRoleOr_bind :
    Returns (ensureRoleOr refusal principal projectId min >>= g) db a db' ↔
      db.Authorized principal projectId min ∧ Returns (g ⟨⟩) db a db' := by
  rw [returns_bind]
  constructor
  · rintro ⟨_, db1, hrole, h⟩
    obtain ⟨hauth, rfl⟩ := returns_ensureRoleOr.mp hrole
    exact ⟨hauth, h⟩
  · rintro ⟨hauth, h⟩
    exact ⟨⟨⟩, db, returns_ensureRoleOr.mpr ⟨hauth, rfl⟩, h⟩

@[simp] theorem returns_ensureRole_bind :
    Returns (ensureRole principal projectId min >>= g) db a db' ↔
      db.Authorized principal projectId min ∧ Returns (g ⟨⟩) db a db' :=
  returns_ensureRoleOr_bind

@[simp] theorem returns_ensureRoleOrNotFound_bind :
    Returns (ensureRoleOrNotFound principal projectId min message >>= g) db a db' ↔
      db.Authorized principal projectId min ∧ Returns (g ⟨⟩) db a db' :=
  returns_ensureRoleOr_bind

/-- A repository call that can fail. -/
def call (f : Database → Except RepoError Database) : Api PUnit := do
  let db ← get
  let db' ← accept ((f db).mapError .repo)
  modify fun _ => db'

/-- A call that fails changes nothing. -/
theorem state_of_call_error {e : ApiError} (h : runProg (call f) db = (.error e, db')) :
    db' = db := by
  have hcall : runProg (call f) db = match f db with
      | .ok db1 => (.ok ⟨⟩, db1)
      | .error e => (.error (.repo e), db) := by
    unfold call
    show runProg (accept ((f db).mapError ApiError.repo) >>= _) db = _
    cases f db <;> rfl
  rw [hcall] at h
  split at h
  · cases h
  · exact (Prod.mk.inj h).2.symm

@[simp] theorem returns_call : Returns (call f) db r db' ↔ f db = .ok db' := by
  unfold call
  simp only [returns_get_bind, returns_accept_bind, returns_modify]
  constructor
  · rintro ⟨db1, hf, rfl⟩
    cases hfs : f db with
    | error =>
      rw [hfs] at hf
      cases hf
    | ok =>
      rw [hfs] at hf
      injection hf with hf
      rw [hf]
  · intro h
    exact ⟨db', by rw [h]; rfl, rfl⟩

end

/-! ## §2. Projects, members and users. -/

/-- `CreateProjectRequest`. -/
structure CreateProjectRequest where
  name : String
  description : Option String
  sharedEnv : List (String × String)
  defaultResourceLimits : Option ResourceLimits
  /-- `Utc::now()`. -/
  now : Nat
  deriving DecidableEq

/-- `Project::new` with the fields of the request, under the next id. -/
def CreateProjectRequest.project (req : CreateProjectRequest) (id : Uuid) : Project :=
  { id, name := req.name, description := req.description, sharedEnv := req.sharedEnv,
    defaultResourceLimits := req.defaultResourceLimits, createdAt := req.now }

/-- What a created project writes. -/
def Database.withProject (db : Database) (req : CreateProjectRequest) : Database :=
  { db.putProject (req.project db.nextId) with nextId := db.nextId + 1 }

/-- `create_project`. -/
def createProject (principal : Principal) (req : CreateProjectRequest) : Api PUnit := do
  ensure (principal.isSuperAdmin = true) (.forbidden "super admin required")
  ensure (trim req.name.toList ≠ []) (.badRequest "service name cannot be empty")
  modify fun db => db.withProject req

/-- `delete_project`. -/
def deleteProject (principal : Principal) (projectId : Uuid) : Api PUnit := do
  ensureRole principal projectId .admin
  call (·.deleteProject projectId)

/-- `add_project_member`. -/
def addProjectMember (principal : Principal) (projectId userId : Uuid) (role : Role) :
    Api PUnit := do
  ensureRole principal projectId .admin
  let db ← get
  ensure (db.getUser userId ≠ none) (.notFound "user not found")
  modify (·.setMembership userId projectId role)

/-- The lockout guard of `remove_project_member`, on the members it has listed. -/
def lockout (members : List (Uuid × Role)) (userId : Uuid) : Bool :=
  (members.any fun m => m.1 = userId ∧ .admin ≤ m.2) &&
    (members.filter fun m => .admin ≤ m.2).length ≤ 1

/-- `remove_project_member`. -/
def removeProjectMember (principal : Principal) (projectId userId : Uuid) : Api PUnit := do
  ensureRole principal projectId .admin
  let db ← get
  ensure (lockout (db.listMembers projectId) userId = false)
    (.conflict "cannot remove the last admin of a project")
  modify (·.removeMembership userId projectId)

/-- `create_user_handler`. -/
def createUser (principal : Principal) (username password : String) (isSuperAdmin : Bool) :
    Api PUnit := do
  ensure (principal.isSuperAdmin = true) (.forbidden "super admin required")
  ensure (trim username.toList ≠ []) (.badRequest "username required")
  ensure (12 ≤ password.utf8ByteSize) (.badRequest "password must be at least 12 characters")
  call (·.createUser username isSuperAdmin)

/-- `delete_user_handler`. -/
def deleteUser (principal : Principal) (userId : Uuid) : Api PUnit := do
  ensure (principal.isSuperAdmin = true) (.forbidden "super admin required")
  call (·.deleteUser userId)

/-! ## §3. Services. -/

/-- `validate_build_path`. -/
def validateBuildPath (path field : String) : Except String Unit :=
  let refuse (reason : String) : Except String Unit :=
    .error ("invalid git build path field '" ++ field ++ "': " ++ reason)
  if path.isEmpty then refuse "path must not be empty"
  else if path.toList.head? = some '/' then refuse "path must not be absolute"
  else if ['.', '.'] <:+: path.toList then
    refuse "path must not contain parent directory reference"
  else if '\x00' ∈ path.toList ∨ '\n' ∈ path.toList ∨ '\r' ∈ path.toList then
    refuse "path contains invalid characters"
  else .ok ()

/-- `GitSource::validate` and `ExternalImageSource::validate`. -/
def ServiceSource.validate (cfg : ApiConfig) : ServiceSource → Except String Unit
  | .git _ _ dockerfilePath contextPath _ => do
      validateBuildPath contextPath "context_path"
      validateBuildPath dockerfilePath "dockerfile_path"
  | .externalImage image _ registryId imageRef =>
      let registry := registryId.isSome && imageRef.isSome
      let legacy := !(trim image.toList).isEmpty
      if registry && legacy then
        .error "external image source has both legacy image and registry_id/image_ref set"
      else if (registryId.isSome || imageRef.isSome) && !registry || !registry && !legacy then
        .error "external image source requires either image or both registry_id and image_ref"
      else if legacy then cfg.checkImageHost image
      else .ok ()
  | .upload => .ok ()

/-- `ServiceEndpoint::validate`, with `validate_endpoint_name`. -/
def ServiceEndpoint.validate (endpoint : ServiceEndpoint) : Except String Unit :=
  if (trim endpoint.name.toList).isEmpty then .error "service endpoint name cannot be empty"
  else if !Deploy.safeName endpoint.name then
    .error ("invalid service endpoint name '" ++ endpoint.name ++
      "': only ASCII alphanumeric, '-' and '_' are allowed")
  else if endpoint.internalPort = 0 ∨ endpoint.publicPort = some 0 then
    .error "service endpoint port must be between 1 and 65535"
  else if endpoint.protocol = .http ∧ endpoint.publicPort.isSome then
    .error "http service endpoints cannot declare a public port"
  else .ok ()

/-- `ServiceConfig::validate`. -/
def ServiceConfig.validate (cfg : ApiConfig) (service : ServiceConfig) : Except String Unit := do
  (Deploy.validateServiceName service.name).mapError (·.text)
  (Deploy.validateDomains service.domains).mapError (·.text)
  if service.internalPort = 0 then .error Deploy.DomainError.invalidPort.text
  (Deploy.validateHealthCheck service.healthCheck).mapError (·.text)
  service.source.validate cfg
  if let some policy := service.autoscale then
    let _ ← policy.validate
  service.endpoints.forM ServiceEndpoint.validate

/-- The TLS hydration at the head of `put_service`. -/
def Database.hydrate (db : Database) (service : ServiceConfig) : ServiceConfig :=
  let domains :=
    if service.tlsEnabled ∧ service.domains = [] ∧ service.id ≠ Uuid.nil then
      db.listVerifiedHostnames service.id
    else service.domains
  { service with domains := domains, tlsEnabled := service.tlsEnabled && !domains.isEmpty }

/-- A source that pulls with a legacy credential. -/
def ServiceSource.legacyCredential : ServiceSource → Bool
  | .externalImage _ credential _ _ => credential.isSome
  | .git .. | .upload => false

/-- The registry of the source is one of the project. -/
def checkRegistry (projectId : Uuid) (source : ServiceSource) : Api PUnit :=
  match source.registryId with
  | none => pure ⟨⟩
  | some registryId => do
      let db ← get
      let registry ← found (db.registry registryId) (.notFound "registry not found")
      ensure (registry.projectId = projectId) (.notFound "registry not found")

/-- The id under which `put_service` saves. -/
def resolveId (service : ServiceConfig) : Api ServiceConfig := do
  let db ← get
  if service.id = Uuid.nil then
    match db.serviceNamed service.projectId service.name with
    | some existing => pure { service with id := existing.id }
    | none => do
        modify fun db => { db with nextId := db.nextId + 1 }
        pure { service with id := db.nextId }
  else do
    let existing ← found (db.getService service.id) (.badRequest "service id does not exist")
    ensure (existing.projectId = service.projectId ∧ existing.name = service.name)
      (.badRequest "service id does not match existing service project/name")
    pure service

/-- One hostname of `sync_domain_rows`. -/
def syncDomainRow (cfg : ApiConfig) (serviceId : Uuid) (existing : List String) (raw : String) :
    Api PUnit := do
  let hostname ← accept ((validateHostname raw).mapError fun e =>
    ApiError.badRequest (Deploy.hostnameErrorText e))
  if hostname.name ∈ existing then pure ⟨⟩
  else do
    ensure (cfg.controlDomain ≠ some hostname.name)
      (.conflict "hostname is reserved for the control plane")
    let db ← get
    let db' ← found (db.putServiceDomain serviceId hostname)
      (.conflict ("hostname already in use: " ++ hostname.name))
    modify fun _ => db'

/-- `sync_domain_rows`. -/
def syncDomainRows (cfg : ApiConfig) (service : ServiceConfig) : Api PUnit := do
  let db ← get
  service.domains.forM (syncDomainRow cfg service.id (db.serviceHostnames service.id))

/-- `put_service`, up to the id of its row. -/
def checkService (cfg : ApiConfig) (principal : Principal) (request : ServiceConfig) :
    Api ServiceConfig := do
  ensureRole principal request.projectId .operator
  let db ← get
  let service := db.hydrate request
  accept ((service.validate cfg).mapError .badRequest)
  ensure (service.source.legacyCredential = false) (.badRequest
    ("legacy external image credential refs are no longer supported; " ++
      "configure a project registry and set registry_id/image_ref"))
  checkRegistry service.projectId service.source
  ensure (service.tlsEnabled = true → cfg.acmeEmail = true)
    (.badRequest "DENIA_ACME_EMAIL must be set to enable TLS")
  resolveId service

/-- `put_service`. -/
def putService (cfg : ApiConfig) (principal : Principal) (request : ServiceConfig) : Api PUnit := do
  let saved ← checkService cfg principal request
  call (·.putService saved)
  syncDomainRows cfg saved

/-- `delete_service`. -/
def deleteService (principal : Principal) (serviceId : Uuid) : Api PUnit := do
  let db ← get
  let service ← found (db.getService serviceId) (.notFound "service not found")
  ensureRoleOrNotFound principal service.projectId .operator "service not found"
  modify (·.deleteService serviceId)

/-- `create_deployment`: accepted, with the pipeline detached. -/
def createDeployment (principal : Principal) (serviceId : Uuid) : Api PUnit := do
  let db ← get
  let service ← found (db.getService serviceId) (.notFound "service not found")
  ensureRoleOrNotFound principal service.projectId .operator "deployment not found"
  modify (·.createDeployment serviceId)

/-- A pipeline comes to its promotion; the services are not read again. -/
def promotion (deploymentId : Uuid) : Api PUnit := do
  let db ← get
  let serviceId ← found (db.inFlight.lookup deploymentId) (.notFound "no such pipeline")
  modify (·.promoteDeployment serviceId deploymentId)

/-- `lifecycle_command` with `stop`. -/
def stopService (principal : Principal) (serviceId : Uuid) : Api PUnit := do
  let db ← get
  let service ← found (db.getService serviceId) (.notFound "service not found")
  ensureRoleOrNotFound principal service.projectId .operator "service not found"
  modify (·.clearPromotedDeployment serviceId)

/-! ## §4. Domains. -/

/-- `create_service_domain`. -/
def createServiceDomain (cfg : ApiConfig) (principal : Principal) (serviceId : Uuid)
    (hostname : String) : Api PUnit := do
  let db ← get
  let service ← found (db.getService serviceId) (.notFound "service not found")
  ensureRole principal service.projectId .operator
  let hostname ← accept ((validateHostname hostname).mapError fun e =>
    ApiError.badRequest (Deploy.hostnameErrorText e))
  ensure (cfg.controlDomain ≠ some hostname.name)
    (.conflict "hostname is reserved for the control plane")
  let db' ← found (db.putServiceDomain serviceId hostname) (.conflict "hostname already in use")
  modify fun _ => db'

/-- The domain row of a service, as the verify and the delete handlers look it up. -/
def domainOf (principal : Principal) (serviceId domainId : Uuid) : Api ServiceDomain := do
  let db ← get
  let service ← found (db.getService serviceId) (.notFound "service not found")
  ensureRole principal service.projectId .operator
  let d ← found (db.getServiceDomain domainId) (.notFound "domain not found")
  ensure (d.serviceId = serviceId) (.notFound "domain not found")
  pure d

/-- `verify_service_domain`; `verified` is what the verifier finds. -/
def verifyServiceDomain (cfg : ApiConfig) (principal : Principal) (serviceId domainId : Uuid)
    (verified : Bool) : Api PUnit := do
  let d ← domainOf principal serviceId domainId
  ensure (cfg.controlDomain ≠ some d.hostname.name)
    (.conflict "hostname is reserved for the control plane")
  if d.status = .verified then pure ⟨⟩
  else modify (·.updateServiceDomainStatus domainId (if verified then .verified else .failed))

/-- `delete_service_domain_handler`. -/
def deleteServiceDomain (principal : Principal) (serviceId domainId : Uuid) : Api PUnit := do
  let _ ← domainOf principal serviceId domainId
  modify (·.deleteServiceDomain domainId)

/-! ## §5. Registries and jobs. -/

/-- `RegistryInput`, without the secret. -/
structure RegistryInput where
  name : String
  endpoint : String
  authKind : RegistryAuthKind
  deriving DecidableEq

/-- `Registry::new`. -/
def RegistryInput.registry (cfg : ApiConfig) (input : RegistryInput) (id projectId : Uuid)
    (credentialRef : Option Uuid) : Except String Registry :=
  let name := trim input.name.toList
  let endpoint := trim input.endpoint.toList
  if name.isEmpty then .error "service name cannot be empty"
  else if endpoint.isEmpty then .error "registry endpoint cannot be empty"
  else
    match cfg.checkEndpoint (String.ofList endpoint) with
    | .error e => .error e
    | .ok () =>
        if input.authKind ≠ .anonymous ∧ credentialRef = none then
          .error "registry credential is required for non-anonymous auth"
        else
          .ok { id, projectId, name := String.ofList name, endpoint := String.ofList endpoint,
                authKind := input.authKind, credentialRef }

/-- The credential a registry is stored with: the secret of the request, under the
reference there is or a new one. -/
def storeCredential (cfg : ApiConfig) (input : RegistryInput) (previous : Option Uuid) :
    Api (Option Uuid) :=
  if input.authKind = .anonymous then pure none
  else do
    ensure (cfg.ageRecipient = true)
      (.badRequest "control plane has no DENIA_AGE_RECIPIENT configured")
    match previous with
    | some ref => pure (some ref)
    | none => do
        let db ← get
        modify fun db => { db with nextId := db.nextId + 1 }
        pure (some db.nextId)

/-- `create_registry`. -/
def createRegistry (cfg : ApiConfig) (principal : Principal) (projectId : Uuid)
    (input : RegistryInput) : Api PUnit := do
  ensureRole principal projectId .admin
  let credentialRef ← storeCredential cfg input none
  let db ← get
  let registry ← accept ((input.registry cfg db.nextId projectId credentialRef).mapError
    ApiError.badRequest)
  modify fun db => { db with nextId := db.nextId + 1 }
  call (·.createRegistry registry)

/-- The registry of a project, as the update and the delete handlers look it up. -/
def registryOf (principal : Principal) (projectId registryId : Uuid) : Api Registry := do
  ensureRole principal projectId .admin
  let db ← get
  let registry ← found (db.registry registryId) (.notFound "registry not found")
  ensure (registry.projectId = projectId) (.notFound "registry not found")
  pure registry

/-- `update_registry_handler`. -/
def updateRegistry (cfg : ApiConfig) (principal : Principal) (projectId registryId : Uuid)
    (input : RegistryInput) : Api PUnit := do
  let existing ← registryOf principal projectId registryId
  let credentialRef ← storeCredential cfg input existing.credentialRef
  let updated ← accept ((input.registry cfg registryId projectId credentialRef).mapError
    ApiError.badRequest)
  call (·.updateRegistry updated)

/-- `delete_registry_handler`. -/
def deleteRegistry (principal : Principal) (projectId registryId : Uuid) : Api PUnit := do
  let _ ← registryOf principal projectId registryId
  call (·.deleteRegistry registryId)

/-- `create_job`: the source is stored as it comes. -/
def createJob (cfg : ApiConfig) (principal : Principal) (job : Job) (schedule : Option String) :
    Api PUnit := do
  ensureRole principal job.projectId .operator
  ensure (trim job.name.toList ≠ []) (.badRequest "service name cannot be empty")
  ensure (∀ s ∈ schedule, cfg.scheduleParses s = true) (.badRequest "invalid cron schedule")
  modify (·.putJob job)

/-- `delete_job`. -/
def deleteJob (principal : Principal) (jobId : Uuid) : Api PUnit := do
  let db ← get
  let job ← found (db.getJob jobId) (.notFound "job not found")
  ensureRoleOrNotFound principal job.projectId .operator "job not found"
  modify (·.deleteJob jobId)

/-! ## §6. The hosted registry. -/

/-- What a request to the hosted registry does to the rows of its repository. -/
inductive HostedCall where
  /-- A pull, or a blob request. -/
  | other (min : Role)
  | putManifest (digest : String) (manifest : Registry.HostedManifest)
  | deleteManifest (digest : String)
  deriving DecidableEq

/-- The role it takes. -/
def HostedCall.min : HostedCall → Role
  | .other min => min
  | .putManifest _ _ | .deleteManifest _ => .operator

/-- `validate_segment`. -/
def segmentOk (segment : String) : Bool :=
  !segment.isEmpty && segment != "." && segment != ".." && !segment.toList.contains '/' &&
    !segment.toList.contains '\\' && !segment.toList.any isWhitespace

/-- `resolve_repo`: the project by the name and id of its BODY, then the service. -/
def resolveRepo (principal : Principal) (project service : String) (min : Role) : Api Uuid := do
  ensure (segmentOk project = true) (.badRequest "invalid repository name")
  ensure (segmentOk service = true) (.badRequest "invalid repository name")
  let db ← get
  let proj ← found (db.listProjects.find? (·.name = project)) (.notFound "unknown project")
  let svc ← found (db.serviceNamed proj.id service) (.notFound "unknown service")
  ensureRole principal proj.id min
  modify fun db => (db.ensureRepository proj.id svc.id (project ++ "/" ++ service)).1
  pure (db.ensureRepository proj.id svc.id (project ++ "/" ++ service)).2

/-- A request to the hosted registry. -/
def hosted (principal : Principal) (project service : String) (act : HostedCall) : Api PUnit := do
  let repositoryId ← resolveRepo principal project service act.min
  match act with
  | .other _ => pure ⟨⟩
  | .putManifest digest manifest => modify (·.putManifest repositoryId digest manifest)
  | .deleteManifest digest => modify (·.deleteManifest repositoryId digest)

/-! ## §7. Histories. -/

/-- The requests. -/
inductive Request where
  | createProject (principal : Principal) (req : CreateProjectRequest)
  | deleteProject (principal : Principal) (projectId : Uuid)
  | addProjectMember (principal : Principal) (projectId userId : Uuid) (role : Role)
  | removeProjectMember (principal : Principal) (projectId userId : Uuid)
  | createUser (principal : Principal) (username password : String) (isSuperAdmin : Bool)
  | deleteUser (principal : Principal) (userId : Uuid)
  | putService (principal : Principal) (service : ServiceConfig)
  | deleteService (principal : Principal) (serviceId : Uuid)
  | createDeployment (principal : Principal) (serviceId : Uuid)
  | promotion (deploymentId : Uuid)
  | stopService (principal : Principal) (serviceId : Uuid)
  | createServiceDomain (principal : Principal) (serviceId : Uuid) (hostname : String)
  | verifyServiceDomain (principal : Principal) (serviceId domainId : Uuid) (verified : Bool)
  | deleteServiceDomain (principal : Principal) (serviceId domainId : Uuid)
  | createRegistry (principal : Principal) (projectId : Uuid) (input : RegistryInput)
  | updateRegistry (principal : Principal) (projectId registryId : Uuid) (input : RegistryInput)
  | deleteRegistry (principal : Principal) (projectId registryId : Uuid)
  | createJob (principal : Principal) (job : Job) (schedule : Option String)
  | deleteJob (principal : Principal) (jobId : Uuid)
  | hosted (principal : Principal) (project service : String) (act : HostedCall)
  deriving DecidableEq

/-- The handler of a request. -/
def handle (cfg : ApiConfig) : Request → Api PUnit
  | .createProject principal req => createProject principal req
  | .deleteProject principal projectId => deleteProject principal projectId
  | .addProjectMember principal projectId userId role =>
      addProjectMember principal projectId userId role
  | .removeProjectMember principal projectId userId =>
      removeProjectMember principal projectId userId
  | .createUser principal username password isSuperAdmin =>
      createUser principal username password isSuperAdmin
  | .deleteUser principal userId => deleteUser principal userId
  | .putService principal service => putService cfg principal service
  | .deleteService principal serviceId => deleteService principal serviceId
  | .createDeployment principal serviceId => createDeployment principal serviceId
  | .promotion deploymentId => promotion deploymentId
  | .stopService principal serviceId => stopService principal serviceId
  | .createServiceDomain principal serviceId hostname =>
      createServiceDomain cfg principal serviceId hostname
  | .verifyServiceDomain principal serviceId domainId verified =>
      verifyServiceDomain cfg principal serviceId domainId verified
  | .deleteServiceDomain principal serviceId domainId =>
      deleteServiceDomain principal serviceId domainId
  | .createRegistry principal projectId input => createRegistry cfg principal projectId input
  | .updateRegistry principal projectId registryId input =>
      updateRegistry cfg principal projectId registryId input
  | .deleteRegistry principal projectId registryId => deleteRegistry principal projectId registryId
  | .createJob principal job schedule => createJob cfg principal job schedule
  | .deleteJob principal jobId => deleteJob principal jobId
  | .hosted principal project service act => hosted principal project service act

/-- The database after a successful request; a history is made of those. -/
def Database.step (cfg : ApiConfig) (db : Database) (request : Request) : Option Database :=
  match runProg (handle cfg request) db with
  | (.ok _, db') => some db'
  | (.error _, _) => none

variable {cfg : ApiConfig}

theorem returns_of_step {request : Request} (h : db.step cfg request = some db') :
    Returns (handle cfg request) db ⟨⟩ db' := by
  unfold Database.step at h
  split at h <;> cases h
  next hrun => exact hrun

/-! ## §8. What a successful request writes. -/

/-- Pending domain rows of one service have been added. -/
structure DomainsAdded (serviceId : Uuid) (db db' : Database) : Prop where
  frame : ∃ rows nextId, db' = { db with serviceDomains := rows, nextId := nextId }
  nextId_le : db.nextId ≤ db'.nextId
  rows : ∀ id d, db'.serviceDomains.lookup id = some d →
    db.serviceDomains.lookup id = some d ∨
      d.serviceId = serviceId ∧ db.nextId ≤ id ∧ id < db'.nextId

namespace DomainsAdded

variable {serviceId : Uuid} {db1 db2 : Database}

theorem refl (serviceId : Uuid) (db : Database) : DomainsAdded serviceId db db :=
  ⟨⟨_, _, rfl⟩, Nat.le_refl _, fun _ _ h => .inl h⟩

theorem trans (h : DomainsAdded serviceId db db1) (h' : DomainsAdded serviceId db1 db2) :
    DomainsAdded serviceId db db2 := by
  obtain ⟨rows1, next1, hdb1⟩ := h.frame
  obtain ⟨rows2, next2, hdb2⟩ := h'.frame
  refine ⟨⟨rows2, next2, by rw [hdb2, hdb1]⟩, Nat.le_trans h.nextId_le h'.nextId_le, ?_⟩
  intro id d hd
  rcases h'.rows id d hd with hd | ⟨hs, hle, hlt⟩
  · rcases h.rows id d hd with hd | ⟨hs, hle, hlt⟩
    · exact .inl hd
    · exact .inr ⟨hs, hle, Nat.lt_of_lt_of_le hlt h'.nextId_le⟩
  · exact .inr ⟨hs, Nat.le_trans h.nextId_le hle, hlt⟩

theorem of_put {hostname : Hostname} (h : db.putServiceDomain serviceId hostname = some db1) :
    DomainsAdded serviceId db db1 := by
  unfold Database.putServiceDomain at h
  split at h <;> cases h
  refine ⟨⟨_, _, rfl⟩, Nat.le_succ _, fun id d hd => ?_⟩
  rcases lookup_insert_cases hd with ⟨rfl, rfl⟩ | ⟨-, hd⟩
  · exact .inr ⟨rfl, Nat.le_refl _, Nat.lt_succ_self _⟩
  · exact .inl hd

end DomainsAdded

variable {registryId : Uuid} {input : RegistryInput}

section
variable {principal : Principal} {request service saved : ServiceConfig} {ref : Option Uuid}

theorem returns_syncDomainRow {serviceId : Uuid} {existing : List String} {raw : String}
    (h : Returns (syncDomainRow cfg serviceId existing raw) db r db') :
    DomainsAdded serviceId db db' := by
  unfold syncDomainRow at h
  obtain ⟨hostname, -, h⟩ := returns_accept_bind.mp h
  split at h
  next =>
    obtain ⟨-, rfl⟩ := returns_pure.mp h
    exact .refl serviceId _
  next =>
    simp only [returns_get_bind, returns_ensure_bind, returns_found_bind, returns_modify] at h
    obtain ⟨-, db1, hput, rfl⟩ := h
    exact .of_put hput

theorem returns_syncDomainRows (h : Returns (syncDomainRows cfg service) db r db') :
    DomainsAdded service.id db db' := by
  unfold syncDomainRows at h
  rw [returns_get_bind] at h
  -- the loop is over the hostnames; each iteration adds rows of this service only
  generalize db.serviceHostnames service.id = existing at h
  generalize service.domains = domains at h
  induction domains generalizing db with
  | nil =>
    obtain ⟨-, rfl⟩ := returns_pure.mp h
    exact .refl service.id _
  | cons raw rest ih =>
    obtain ⟨_, db1, hrow, hrest⟩ := returns_bind.mp h
    exact (returns_syncDomainRow hrow).trans (ih hrest)

/-- The registry a source names is one of the project. -/
def Database.RegistryFits (db : Database) (projectId : Uuid) (source : ServiceSource) : Prop :=
  ∀ registryId, source.registryId = some registryId →
    ∃ registry, db.registry registryId = some registry ∧ registry.projectId = projectId

theorem returns_checkRegistry {source : ServiceSource} :
    Returns (checkRegistry projectId source) db r db' ↔
      db.RegistryFits projectId source ∧ db' = db := by
  unfold checkRegistry Database.RegistryFits
  cases source.registryId with
  | none => simp only [returns_pure, reduceCtorEq, false_implies, implies_true, true_and]
  | some =>
    simp only [returns_get_bind, returns_found_bind, returns_ensure, Option.some.injEq, forall_eq']
    constructor
    · rintro ⟨registry, hregistry, hproject, hdb⟩
      exact ⟨⟨registry, hregistry, hproject⟩, hdb⟩
    · rintro ⟨⟨registry, hregistry, hproject⟩, hdb⟩
      exact ⟨registry, hregistry, hproject, hdb⟩

/-- The id a service is saved under. -/
def Database.Resolves (db : Database) (service saved : ServiceConfig) : Prop :=
  if service.id = Uuid.nil then
    saved = { service with
      id := ((db.serviceNamed service.projectId service.name).map (·.id)).getD db.nextId }
  else
    saved = service ∧ ∃ existing, db.getService service.id = some existing ∧
      existing.projectId = service.projectId ∧ existing.name = service.name

/-- Resolving the id keeps the rest of the config. -/
theorem Database.Resolves.eq_withId (h : db.Resolves service saved) :
    ∃ id, saved = { service with id := id } := by
  unfold Database.Resolves at h
  split at h
  · exact ⟨_, h⟩
  · exact ⟨service.id, h.1⟩

/-- The number `resolveId` leaves for the next id. -/
def Database.nextIdAfter (db : Database) (service : ServiceConfig) : Uuid :=
  if service.id = Uuid.nil ∧ db.serviceNamed service.projectId service.name = none then
    db.nextId + 1
  else db.nextId

theorem le_nextIdAfter (db : Database) (service : ServiceConfig) :
    db.nextId ≤ db.nextIdAfter service := by
  unfold Database.nextIdAfter
  split
  · exact Nat.le_succ _
  · exact Nat.le_refl _

theorem returns_resolveId : Returns (resolveId service) db saved db' ↔
      db.Resolves service saved ∧ db' = { db with nextId := db.nextIdAfter service } := by
  unfold resolveId Database.Resolves Database.nextIdAfter
  rw [returns_get_bind]
  by_cases hnil : service.id = Uuid.nil
  · simp only [hnil, if_true, true_and]
    cases hnamed : db.serviceNamed service.projectId service.name with
    | some =>
      simp only [returns_pure, Option.map_some, Option.getD_some, reduceCtorEq, if_false]
    | none =>
      simp only [returns_modify_bind, returns_pure, Option.map_none, Option.getD_none, if_true]
  · simp only [hnil, if_false, false_and, returns_found_bind, returns_ensure_bind, returns_pure]
    constructor
    · rintro ⟨existing, hexisting, hsame, hsaved, hdb⟩
      exact ⟨⟨hsaved, existing, hexisting, hsame⟩, hdb⟩
    · rintro ⟨⟨hsaved, existing, hexisting, hsame⟩, hdb⟩
      exact ⟨existing, hexisting, hsame, hsaved, hdb⟩

/-- What the checks let through. -/
theorem returns_checkService : Returns (checkService cfg principal request) db saved db' ↔
      (db.Authorized principal request.projectId .operator ∧
        (db.hydrate request).validate cfg = .ok () ∧
        (db.hydrate request).source.legacyCredential = false ∧
        db.RegistryFits (db.hydrate request).projectId (db.hydrate request).source ∧
        ((db.hydrate request).tlsEnabled = true → cfg.acmeEmail = true) ∧
        db.Resolves (db.hydrate request) saved) ∧
      db' = { db with nextId := db.nextIdAfter (db.hydrate request) } := by
  unfold checkService
  simp only [returns_ensureRole_bind, returns_get_bind, returns_accept_bind, returns_ensure_bind,
    mapError_eq_ok]
  constructor
  · rintro ⟨hauth, _, hvalid, hlegacy, hrest⟩
    obtain ⟨_, db1, hregistry, hrest⟩ := returns_bind.mp hrest
    obtain ⟨hfits, rfl⟩ := returns_checkRegistry.mp hregistry
    obtain ⟨hacme, hresolve⟩ := returns_ensure_bind.mp hrest
    obtain ⟨hresolves, hdb⟩ := returns_resolveId.mp hresolve
    exact ⟨⟨hauth, hvalid, hlegacy, hfits, hacme, hresolves⟩, hdb⟩
  · rintro ⟨⟨hauth, hvalid, hlegacy, hfits, hacme, hresolves⟩, hdb⟩
    refine ⟨hauth, ⟨⟩, hvalid, hlegacy, returns_bind.mpr ⟨⟨⟩, db, ?_, ?_⟩⟩
    · exact returns_checkRegistry.mpr ⟨hfits, rfl⟩
    · exact returns_ensure_bind.mpr ⟨hacme, returns_resolveId.mpr ⟨hresolves, hdb⟩⟩

theorem returns_storeCredential {previous : Option Uuid}
    (h : Returns (storeCredential cfg input previous) db ref db') :
    ∃ nextId, db.nextId ≤ nextId ∧ db' = { db with nextId := nextId } := by
  unfold storeCredential at h
  split at h
  next =>
    obtain ⟨-, rfl⟩ := returns_pure.mp h
    exact ⟨_, Nat.le_refl _, rfl⟩
  next =>
    obtain ⟨-, hrest⟩ := returns_ensure_bind.mp h
    split at hrest
    next =>
      obtain ⟨-, rfl⟩ := returns_pure.mp hrest
      exact ⟨_, Nat.le_refl _, rfl⟩
    next =>
      simp only [returns_get_bind, returns_modify_bind, returns_pure] at hrest
      obtain ⟨-, rfl⟩ := hrest
      exact ⟨_, Nat.le_succ _, rfl⟩

theorem registry_fields {id : Uuid} {registry : Registry}
    (h : (input.registry cfg id projectId ref).mapError ApiError.badRequest = .ok registry) :
    registry.id = id ∧ registry.projectId = projectId := by
  cases hinput : input.registry cfg id projectId ref with
  | error => rw [hinput] at h; cases h
  | ok =>
    rw [hinput] at h
    cases h
    unfold RegistryInput.registry at hinput
    simp only at hinput
    repeat' split at hinput
    all_goals cases hinput
    exact ⟨rfl, rfl⟩

/-- What the hosted registry's request leaves in its repository. -/
def Database.applyHosted (db : Database) (repositoryId : Uuid) : HostedCall → Database
  | .other _ => db
  | .putManifest digest manifest => db.putManifest repositoryId digest manifest
  | .deleteManifest digest => db.deleteManifest repositoryId digest

end

/-- **Everything a successful request writes**, with the checks it has passed. -/
inductive Effect (db : Database) : Request → Database → Prop
  | createProject {principal req} (hsuper : principal.isSuperAdmin = true)
      (hname : trim req.name.toList ≠ []) :
      Effect db (.createProject principal req) (db.withProject req)
  | deleteProject {principal projectId db'} (hdelete : db.deleteProject projectId = .ok db') :
      Effect db (.deleteProject principal projectId) db'
  | addProjectMember {principal projectId userId role}
      (hauth : db.Authorized principal projectId .admin) :
      Effect db (.addProjectMember principal projectId userId role)
        (db.setMembership userId projectId role)
  | removeProjectMember {principal projectId userId} :
      Effect db (.removeProjectMember principal projectId userId)
        (db.removeMembership userId projectId)
  | createUser {principal username password isSuperAdmin db'}
      (hcreate : db.createUser username isSuperAdmin = .ok db') :
      Effect db (.createUser principal username password isSuperAdmin) db'
  | deleteUser {principal userId db'} (hdelete : db.deleteUser userId = .ok db') :
      Effect db (.deleteUser principal userId) db'
  | putService {principal request saved nextId db1 db'}
      (hauth : db.Authorized principal request.projectId .operator)
      (hregistry : db.RegistryFits request.projectId request.source)
      (hproject : saved.projectId = request.projectId) (hsource : saved.source = request.source)
      (hnext : db.nextId ≤ nextId)
      (hput : Database.putService { db with nextId := nextId } saved = .ok db1)
      (hdomains : DomainsAdded saved.id db1 db') :
      Effect db (.putService principal request) db'
  | deleteService {principal serviceId} :
      Effect db (.deleteService principal serviceId) (db.deleteService serviceId)
  | createDeployment {principal serviceId} :
      Effect db (.createDeployment principal serviceId) (db.createDeployment serviceId)
  | promotion {deploymentId serviceId}
      (hpipeline : db.inFlight.lookup deploymentId = some serviceId) :
      Effect db (.promotion deploymentId) (db.promoteDeployment serviceId deploymentId)
  | stopService {principal serviceId} :
      Effect db (.stopService principal serviceId) (db.clearPromotedDeployment serviceId)
  | createServiceDomain {principal serviceId service hostname db'}
      (hservice : db.getService serviceId = some service)
      (hdomains : DomainsAdded serviceId db db') :
      Effect db (.createServiceDomain principal serviceId hostname) db'
  | verifiedBefore {principal serviceId domainId verified} :
      Effect db (.verifyServiceDomain principal serviceId domainId verified) db
  | verifyServiceDomain {principal serviceId domainId verified} (status : Deploy.DomainStatus) :
      Effect db (.verifyServiceDomain principal serviceId domainId verified)
        (db.updateServiceDomainStatus domainId status)
  | deleteServiceDomain {principal serviceId domainId} :
      Effect db (.deleteServiceDomain principal serviceId domainId)
        (db.deleteServiceDomain domainId)
  | createRegistry {principal projectId input registry nextId db'}
      (hauth : db.Authorized principal projectId .admin) (hproject : registry.projectId = projectId)
      (hfresh : db.nextId ≤ registry.id) (hnext : registry.id < nextId)
      (hcreate : Database.createRegistry { db with nextId := nextId } registry = .ok db') :
      Effect db (.createRegistry principal projectId input) db'
  | updateRegistry {principal projectId registryId input existing updated nextId db'}
      (hexisting : db.registry registryId = some existing)
      (hsame : existing.projectId = projectId) (hid : updated.id = registryId)
      (hproject : updated.projectId = projectId) (hnext : db.nextId ≤ nextId)
      (hupdate : Database.updateRegistry { db with nextId := nextId } updated = .ok db') :
      Effect db (.updateRegistry principal projectId registryId input) db'
  | deleteRegistry {principal projectId registryId db'}
      (hdelete : db.deleteRegistry registryId = .ok db') :
      Effect db (.deleteRegistry principal projectId registryId) db'
  | createJob {principal job schedule} (hauth : db.Authorized principal job.projectId .operator) :
      Effect db (.createJob principal job schedule) (db.putJob job)
  | deleteJob {principal jobId} : Effect db (.deleteJob principal jobId) (db.deleteJob jobId)
  | hosted {principal project service act proj svc}
      (hservice : db.serviceNamed proj service = some svc) (name : String) :
      Effect db (.hosted principal project service act)
        ((db.ensureRepository proj svc.id name).1.applyHosted
          (db.ensureRepository proj svc.id name).2 act)

section
variable {principal : Principal} {request : ServiceConfig}

/-- The requests that look a row up and write if the principal has a role in its project. -/
theorem returns_owned {α : Type} {find : Database → Option α} {projectOf : α → Uuid}
    {missing : ApiError} {min : Role} {g : Database → Database} (h : Returns (do
      let db ← get
      let row ← found (find db) missing
      ensureRoleOrNotFound principal (projectOf row) min message
      modify g : Api PUnit) db r db') : db' = g db := by
  obtain ⟨_, -, h⟩ := returns_found_bind.mp (returns_get_bind.mp h)
  exact returns_modify.mp (returns_ensureRoleOrNotFound_bind.mp h).2

theorem putService_effect (h : Returns (putService cfg principal request) db r db') :
    Effect db (.putService principal request) db' := by
  unfold putService at h
  obtain ⟨saved, db1, hchecks, hrest⟩ := returns_bind.mp h
  obtain ⟨⟨hauth, -, -, hfits, -, hresolves⟩, rfl⟩ := returns_checkService.mp hchecks
  obtain ⟨id, rfl⟩ := hresolves.eq_withId
  obtain ⟨_, db2, hput, hsync⟩ := returns_bind.mp hrest
  refine .putService hauth hfits ?_ ?_ (le_nextIdAfter db _) (returns_call.mp hput)
    (returns_syncDomainRows hsync) <;> rfl

theorem createRegistry_effect
    (h : Returns (createRegistry cfg principal projectId input) db r db') :
    Effect db (.createRegistry principal projectId input) db' := by
  unfold createRegistry at h
  obtain ⟨hauth, hrest⟩ := returns_ensureRole_bind.mp h
  obtain ⟨ref, db1, hstore, hrest⟩ := returns_bind.mp hrest
  obtain ⟨nextId, hnext, rfl⟩ := returns_storeCredential hstore
  simp only [returns_get_bind, returns_accept_bind, returns_modify_bind, returns_call] at hrest
  obtain ⟨registry, hregistry, hcreate⟩ := hrest
  obtain ⟨hid, hproject⟩ := registry_fields hregistry
  exact .createRegistry hauth hproject (hid ▸ hnext) (hid ▸ Nat.lt_succ_self _) hcreate

theorem updateRegistry_effect
    (h : Returns (updateRegistry cfg principal projectId registryId input) db r db') :
    Effect db (.updateRegistry principal projectId registryId input) db' := by
  unfold updateRegistry at h
  obtain ⟨existing, db1, hof, hrest⟩ := returns_bind.mp h
  unfold registryOf at hof
  simp only [returns_get_bind, returns_ensureRole_bind, returns_found_bind, returns_ensure_bind,
    returns_pure] at hof
  obtain ⟨-, found, hexisting, hsame, rfl, rfl⟩ := hof
  obtain ⟨ref, db2, hstore, hrest⟩ := returns_bind.mp hrest
  obtain ⟨nextId, hnext, rfl⟩ := returns_storeCredential hstore
  simp only [returns_accept_bind, returns_call] at hrest
  obtain ⟨updated, hupdated, hupdate⟩ := hrest
  obtain ⟨hid, hproject⟩ := registry_fields hupdated
  exact .updateRegistry hexisting hsame hid hproject hnext hupdate

theorem domain_effect {serviceId domainId : Uuid} {d : ServiceDomain}
    (h : Returns (domainOf principal serviceId domainId) db d db') : db' = db := by
  unfold domainOf at h
  simp only [returns_get_bind, returns_ensureRole_bind, returns_found_bind, returns_ensure_bind,
    returns_pure] at h
  obtain ⟨_, -, -, _, -, -, -, hdb⟩ := h
  exact hdb

theorem hosted_effect {project service : String} {act : HostedCall}
    (h : Returns (hosted principal project service act) db r db') :
    Effect db (.hosted principal project service act) db' := by
  unfold hosted at h
  obtain ⟨repositoryId, db1, hresolve, hact⟩ := returns_bind.mp h
  unfold resolveRepo at hresolve
  simp only [returns_get_bind, returns_ensure_bind, returns_found_bind, returns_ensureRole_bind,
    returns_modify_bind, returns_pure] at hresolve
  obtain ⟨-, -, proj, -, svc, hsvc, -, rfl, rfl⟩ := hresolve
  cases act with
  | other =>
    obtain ⟨-, rfl⟩ := returns_pure.mp hact
    exact .hosted hsvc _
  | putManifest =>
    obtain rfl := returns_modify.mp hact
    exact .hosted hsvc _
  | deleteManifest =>
    obtain rfl := returns_modify.mp hact
    exact .hosted hsvc _

/-- **Every successful request has its effect.** -/
theorem handle_effect {request : Request} (h : db.step cfg request = some db') :
    Effect db request db' := by
  have hret := returns_of_step h
  clear h
  cases request with
  | createProject =>
    simp only [handle, createProject, returns_ensure_bind, returns_modify] at hret
    obtain ⟨hsuper, hname, rfl⟩ := hret
    exact .createProject hsuper hname
  | deleteProject =>
    simp only [handle, deleteProject, returns_ensureRole_bind, returns_call] at hret
    exact .deleteProject hret.2
  | addProjectMember =>
    simp only [handle, addProjectMember, returns_ensureRole_bind, returns_get_bind,
      returns_ensure_bind, returns_modify] at hret
    obtain ⟨hauth, -, rfl⟩ := hret
    exact .addProjectMember hauth
  | removeProjectMember =>
    simp only [handle, removeProjectMember, returns_ensureRole_bind, returns_get_bind,
      returns_ensure_bind, returns_modify] at hret
    obtain ⟨-, -, rfl⟩ := hret
    exact .removeProjectMember
  | createUser =>
    simp only [handle, createUser, returns_ensure_bind, returns_call] at hret
    exact .createUser hret.2.2.2
  | deleteUser =>
    simp only [handle, deleteUser, returns_ensure_bind, returns_call] at hret
    exact .deleteUser hret.2
  | putService => exact putService_effect hret
  | deleteService =>
    obtain rfl := returns_owned hret
    exact .deleteService
  | createDeployment =>
    obtain rfl := returns_owned hret
    exact .createDeployment
  | promotion =>
    simp only [handle, promotion, returns_get_bind, returns_found_bind, returns_modify] at hret
    obtain ⟨serviceId, hpipeline, rfl⟩ := hret
    exact .promotion hpipeline
  | stopService =>
    obtain rfl := returns_owned hret
    exact .stopService
  | createServiceDomain =>
    simp only [handle, createServiceDomain, returns_get_bind, returns_found_bind,
      returns_ensureRole_bind, returns_accept_bind, returns_ensure_bind, returns_modify] at hret
    obtain ⟨service, hservice, -, name, -, -, db1, hput, rfl⟩ := hret
    exact .createServiceDomain hservice (.of_put hput)
  | verifyServiceDomain =>
    obtain ⟨d, db1, hof, hrest⟩ := returns_bind.mp hret
    obtain rfl := domain_effect hof
    obtain ⟨-, hrest⟩ := returns_ensure_bind.mp hrest
    split at hrest
    next =>
      obtain ⟨-, rfl⟩ := returns_pure.mp hrest
      exact .verifiedBefore
    next =>
      obtain rfl := returns_modify.mp hrest
      exact .verifyServiceDomain _
  | deleteServiceDomain =>
    obtain ⟨d, db1, hof, hrest⟩ := returns_bind.mp hret
    obtain rfl := domain_effect hof
    obtain rfl := returns_modify.mp hrest
    exact .deleteServiceDomain
  | createRegistry => exact createRegistry_effect hret
  | updateRegistry => exact updateRegistry_effect hret
  | deleteRegistry =>
    simp only [handle, deleteRegistry, registryOf, bind_assoc, pure_bind, returns_get_bind,
      returns_ensureRole_bind, returns_found_bind, returns_ensure_bind, returns_call] at hret
    obtain ⟨-, existing, -, -, hdelete⟩ := hret
    exact .deleteRegistry hdelete
  | createJob =>
    simp only [handle, createJob, returns_ensureRole_bind, returns_ensure_bind,
      returns_modify] at hret
    obtain ⟨hauth, -, -, rfl⟩ := hret
    exact .createJob hauth
  | deleteJob =>
    obtain rfl := returns_owned hret
    exact .deleteJob
  | hosted => exact hosted_effect hret

end

end Denia.Tenancy
