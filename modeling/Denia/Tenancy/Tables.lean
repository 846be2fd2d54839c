/-
  Denia.Tenancy.Tables — the tables that say WHO OWNS WHAT: projects, users and their
  memberships, and the services, jobs, registries, domains and hosted repositories that
  belong to a project (`src/repo/sqlite/{pool,projects,users,services,domains,
  registries,jobs,deployments}.rs`, `src/registry/repo.rs`).

  Each table is an `AList` on its primary key; the other columns are the row.  No table
  declares a foreign key.  A project and a registry stand in their row TWICE: as columns
  and as the JSON body, and the queries read either.  A service or job row whose columns
  and body differ is refused on reading and never written, so there the body is the row.

  A repository call holds the one connection for its whole length and is one change of
  the database.  Where the order of a listing matters to no reader it is the table's.
-/
import Denia.Deploy.Store
import Denia.Lib.References
import Denia.Registry.Repo

namespace Denia.Tenancy

open Lib Verification

/-! ## §1. Rows. -/

/-- `Role`. -/
inductive Role where
  | viewer
  | operator
  | admin
  deriving DecidableEq

/-- The discriminant, by which roles are compared. -/
def Role.level : Role → Nat
  | .viewer => 0
  | .operator => 1
  | .admin => 2

instance : LE Role := ⟨fun a b => a.level ≤ b.level⟩

instance : DecidableLE Role := fun a b => inferInstanceAs (Decidable (a.level ≤ b.level))

/-- `Project`. -/
structure Project where
  id : Uuid
  name : String
  description : Option String
  sharedEnv : List (String × String)
  defaultResourceLimits : Option ResourceLimits
  createdAt : Nat

/-- `projects`, past its key and the description column, which is never read. -/
structure ProjectRow where
  name : String
  configJson : Project

/-- `User`. -/
structure User where
  username : String
  isSuperAdmin : Bool

/-- `ServiceSource`, with `GitSource` and `ExternalImageSource`. -/
inductive ServiceSource where
  | git (repoUrl gitRef dockerfilePath contextPath credential : String)
  | externalImage (image : String) (credential : Option String) (registryId : Option Uuid)
      (imageRef : Option String)
  | upload
  deriving DecidableEq

/-- The registry a source pulls from. -/
def ServiceSource.registryId : ServiceSource → Option Uuid
  | .externalImage _ _ registryId _ => registryId
  | .git .. | .upload => none

/-- `ServiceEndpointProtocol`. -/
inductive ServiceEndpointProtocol where
  | http
  | tcp
  | udp
  deriving DecidableEq

/-- A port of a service beside its main one. -/
structure ServiceEndpoint where
  name : String
  protocol : ServiceEndpointProtocol
  internalPort : Nat
  publicPort : Option Nat := none
  deriving DecidableEq

/-- `ServiceConfig`, with its serde defaults; the policy is that of the request. -/
structure ServiceConfig where
  id : Uuid := Uuid.nil
  projectId : Uuid
  name : String
  domains : List String
  source : ServiceSource
  internalPort : Nat
  healthCheck : HealthCheck
  resourceLimits : Option ResourceLimits := none
  env : List (String × String) := []
  tlsEnabled : Bool := false
  autoscale : Option PolicyInput := none
  endpoints : List ServiceEndpoint := []
  deriving DecidableEq

/-- An uploaded service with nothing but a name. -/
def ServiceConfig.plain (id projectId : Uuid) (name : String) : ServiceConfig :=
  { id, projectId, name, domains := [], source := .upload, internalPort := 8080
    healthCheck := ⟨"/", 5⟩ }

/-- `ServiceDomain`. -/
structure ServiceDomain where
  serviceId : Uuid
  hostname : Hostname
  status : Deploy.DomainStatus

/-- `RegistryAuthKind`. -/
inductive RegistryAuthKind where
  | anonymous
  | basic
  | token
  | ecrToken
  | garToken
  deriving DecidableEq

/-- `Registry`. -/
structure Registry where
  id : Uuid
  projectId : Uuid
  name : String
  endpoint : String
  authKind : RegistryAuthKind
  /-- The id `SecretRef::generate` puts into the reference. -/
  credentialRef : Option Uuid

/-- `registries`, past its key. -/
structure RegistryRow where
  projectId : Uuid
  name : String
  configJson : Registry

/-- `Job`, past what it executes and when. -/
structure Job where
  projectId : Uuid
  name : String
  source : ServiceSource
  deriving DecidableEq

/-- `HostedRepository`. -/
structure HostedRepository where
  projectId : Uuid
  serviceId : Uuid
  name : String

/-- The database; `nextId` is the next `Uuid::now_v7()`. -/
structure Database where
  projects : AList fun _ : Uuid => ProjectRow
  users : AList fun _ : Uuid => User
  /-- By `(user_id, project_id)`. -/
  projectMembers : AList fun _ : Uuid × Uuid => Role
  services : AList fun _ : Uuid => ServiceConfig
  serviceDomains : AList fun _ : Uuid => ServiceDomain
  promotedDeployments : AList fun _ : Uuid => Uuid
  /-- By deployment, the service its detached pipeline was started for; the promotion is
  still to come, if it comes.  This is memory of the daemon. -/
  inFlight : AList fun _ : Uuid => Uuid
  registries : AList fun _ : Uuid => RegistryRow
  jobs : AList fun _ : Uuid => Job
  hostedRepositories : AList fun _ : Uuid => HostedRepository
  /-- By `(repository_id, digest)`. -/
  hostedManifests : AList fun _ : Uuid × String => Registry.HostedManifest
  nextId : Uuid

/-- `RepoError`. -/
inductive RepoError where
  | sqlite (reason : String)
  | projectNotEmpty
  | lastSuperAdmin
  | registryNotFound
  | registryInUse
  | invalidColumn (reason : String)
  | conflict (reason : String)
  deriving DecidableEq

namespace Database

/-! ## §2. Projects. -/

/-- `put_project_q`: the conflict is on the NAME, and then the key stays while the body,
with the id in it, is replaced. -/
def putProject (db : Database) (project : Project) : Database :=
  match db.projects.entries.find? fun e => e.2.name = project.name with
  | some row =>
      { db with projects := db.projects.insert row.1 { row.2 with configJson := project } }
  | none => { db with projects := db.projects.insert project.id ⟨project.name, project⟩ }

/-- `get_project_q`: by key, the body. -/
def getProject (db : Database) (projectId : Uuid) : Option Project :=
  (db.projects.lookup projectId).map (·.configJson)

/-- `list_projects_q`: the bodies. -/
def listProjects (db : Database) : List Project := db.projects.entries.map (·.2.configJson)

/-- `count_services_in_project_q`. -/
def countServicesInProject (db : Database) (projectId : Uuid) : Nat :=
  (db.services.entries.filter fun e => e.2.projectId = projectId).length

/-- `delete_project_q`. -/
def deleteProject (db : Database) (projectId : Uuid) : Except RepoError Database :=
  if db.countServicesInProject projectId > 0 then .error .projectNotEmpty
  else
    .ok { db with
      jobs := retain db.jobs fun _ job => job.projectId ≠ projectId
      registries := retain db.registries fun _ row => row.projectId ≠ projectId
      projectMembers := restrict db.projectMembers fun key => key.2 ≠ projectId
      projects := db.projects.erase projectId }

/-! ## §3. Users and memberships. -/

/-- `create_user_q`. -/
def createUser (db : Database) (username : String) (isSuperAdmin : Bool) :
    Except RepoError Database :=
  if db.users.entries.any fun e => e.2.username = username then
    .error (.conflict "username already exists")
  else
    .ok { db with
      users := db.users.insert db.nextId ⟨username, isSuperAdmin⟩
      nextId := db.nextId + 1 }

/-- `get_user_q`. -/
def getUser (db : Database) (userId : Uuid) : Option User := db.users.lookup userId

/-- `delete_user_q`. -/
def deleteUser (db : Database) (userId : Uuid) : Except RepoError Database :=
  match db.users.lookup userId with
  | none => .error (.sqlite "Query returned no rows")
  | some target =>
      if (db.users.entries.filter fun e => e.2.isSuperAdmin).length ≤ 1 ∧ target.isSuperAdmin then
        .error .lastSuperAdmin
      else
        .ok { db with
          projectMembers := restrict db.projectMembers fun key => key.1 ≠ userId
          users := db.users.erase userId }

/-- `set_membership_q`: a role there is replaced. -/
def setMembership (db : Database) (userId projectId : Uuid) (role : Role) : Database :=
  { db with projectMembers := db.projectMembers.insert (userId, projectId) role }

/-- `role_for_q`. -/
def roleFor (db : Database) (userId projectId : Uuid) : Option Role :=
  db.projectMembers.lookup (userId, projectId)

/-- `list_members_q`: the users of a project with their roles. -/
def listMembers (db : Database) (projectId : Uuid) : List (Uuid × Role) :=
  (db.projectMembers.entries.filter fun e => e.1.2 = projectId).map fun e => (e.1.1, e.2)

/-- `remove_membership_q`. -/
def removeMembership (db : Database) (userId projectId : Uuid) : Database :=
  { db with projectMembers := db.projectMembers.erase (userId, projectId) }

/-! ## §4. Services and their domains. -/

/-- `get_service_q`. -/
def getService (db : Database) (serviceId : Uuid) : Option ServiceConfig :=
  db.services.lookup serviceId

/-- `list_services_q`. -/
def listServices (db : Database) : List ServiceConfig := db.services.entries.map (·.2)

/-- The service of a project with a name. -/
def serviceNamed (db : Database) (projectId : Uuid) (name : String) : Option ServiceConfig :=
  db.listServices.find? fun s => s.projectId = projectId ∧ s.name = name

/-- `put_service_q`: the row of the project and name must have this id; without one, the
id must be free. -/
def putService (db : Database) (service : ServiceConfig) : Except RepoError Database :=
  match db.serviceNamed service.projectId service.name with
  | some existing =>
      if existing.id ≠ service.id then
        .error (.invalidColumn "services.config_json.id does not match existing row id")
      else .ok { db with services := db.services.insert service.id service }
  | none =>
      if service.id ∈ db.services then .error (.sqlite "UNIQUE constraint failed: services.id")
      else .ok { db with services := db.services.insert service.id service }

/-- `delete_service_q`: one row of one table. -/
def deleteService (db : Database) (serviceId : Uuid) : Database :=
  { db with services := db.services.erase serviceId }

/-- `list_service_domains_by_service_q`, its hostnames. -/
def serviceHostnames (db : Database) (serviceId : Uuid) : List String :=
  (db.serviceDomains.entries.filter fun e => e.2.serviceId = serviceId).map (·.2.hostname.name)

/-- `list_verified_hostnames_q`. -/
def listVerifiedHostnames (db : Database) (serviceId : Uuid) : List String :=
  (db.serviceDomains.entries.filter fun e =>
    e.2.serviceId = serviceId ∧ e.2.status = .verified).map (·.2.hostname.name)

/-- `put_service_domain_q`: a pending row, unless the hostname has one. -/
def putServiceDomain (db : Database) (serviceId : Uuid) (hostname : Hostname) : Option Database :=
  if db.serviceDomains.entries.any fun e => e.2.hostname = hostname then none
  else
    some { db with
      serviceDomains := db.serviceDomains.insert db.nextId ⟨serviceId, hostname, .pending⟩
      nextId := db.nextId + 1 }

/-- `get_service_domain_q`. -/
def getServiceDomain (db : Database) (id : Uuid) : Option ServiceDomain :=
  db.serviceDomains.lookup id

/-- `update_service_domain_status_q`; an id without a row changes nothing. -/
def updateServiceDomainStatus (db : Database) (id : Uuid) (status : Deploy.DomainStatus) :
    Database :=
  match db.serviceDomains.lookup id with
  | none => db
  | some d => { db with serviceDomains := db.serviceDomains.insert id { d with status := status } }

/-- `delete_service_domain_q`. -/
def deleteServiceDomain (db : Database) (id : Uuid) : Database :=
  { db with serviceDomains := db.serviceDomains.erase id }

/-- `create_deployment_q`, and the start of its pipeline. -/
def createDeployment (db : Database) (serviceId : Uuid) : Database :=
  { db with inFlight := db.inFlight.insert db.nextId serviceId, nextId := db.nextId + 1 }

/-- `promote_deployment_q`, its own table, by a pipeline that comes to it. -/
def promoteDeployment (db : Database) (serviceId deploymentId : Uuid) : Database :=
  { db with
    promotedDeployments := db.promotedDeployments.insert serviceId deploymentId
    inFlight := db.inFlight.erase deploymentId }

/-- `clear_promoted_deployment_q`. -/
def clearPromotedDeployment (db : Database) (serviceId : Uuid) : Database :=
  { db with promotedDeployments := db.promotedDeployments.erase serviceId }

/-! ## §5. Registries and jobs. -/

/-- Another registry of the project has the name. -/
def registryNameTaken (db : Database) (registryId projectId : Uuid) (name : String) : Bool :=
  db.registries.entries.any fun e =>
    e.1 ≠ registryId ∧ e.2.projectId = projectId ∧ e.2.name = name

/-- `create_registry_q`. -/
def createRegistry (db : Database) (registry : Registry) : Except RepoError Database :=
  if db.registryNameTaken registry.id registry.projectId registry.name then
    .error (.sqlite "UNIQUE constraint failed: registries.project_id, registries.name")
  else
    .ok { db with
      registries := db.registries.insert registry.id
        ⟨registry.projectId, registry.name, registry⟩ }

/-- `update_registry_q`: the name and the body; the project column stays. -/
def updateRegistry (db : Database) (registry : Registry) : Except RepoError Database :=
  match db.registries.lookup registry.id with
  | none => .error .registryNotFound
  | some row =>
      if db.registryNameTaken registry.id row.projectId registry.name then
        .error (.sqlite "UNIQUE constraint failed: registries.project_id, registries.name")
      else
        .ok { db with
          registries := db.registries.insert registry.id
            { row with name := registry.name, configJson := registry } }

/-- `registry_q`: by key, the body. -/
def registry (db : Database) (id : Uuid) : Option Registry :=
  (db.registries.lookup id).map (·.configJson)

/-- `delete_registry_q`: refused while a SERVICE of the body's project pulls from it. -/
def deleteRegistry (db : Database) (id : Uuid) : Except RepoError Database :=
  match db.registry id with
  | none => .error .registryNotFound
  | some registry =>
      if db.services.entries.any fun e =>
          e.2.projectId = registry.projectId ∧ e.2.source.registryId = some id then
        .error .registryInUse
      else .ok { db with registries := db.registries.erase id }

/-- `put_job_q`, under a fresh id. -/
def putJob (db : Database) (job : Job) : Database :=
  { db with jobs := db.jobs.insert db.nextId job, nextId := db.nextId + 1 }

/-- `get_job_q`. -/
def getJob (db : Database) (jobId : Uuid) : Option Job := db.jobs.lookup jobId

/-- `delete_job_q`. -/
def deleteJob (db : Database) (jobId : Uuid) : Database := { db with jobs := db.jobs.erase jobId }

/-! ## §6. The hosted registry. -/

/-- `ensure_repository`: the row of the project and service, or a new one. -/
def ensureRepository (db : Database) (projectId serviceId : Uuid) (name : String) :
    Database × Uuid :=
  match db.hostedRepositories.entries.find? fun e =>
      e.2.projectId = projectId ∧ e.2.serviceId = serviceId with
  | some row => (db, row.1)
  | none =>
      ({ db with
         hostedRepositories := db.hostedRepositories.insert db.nextId ⟨projectId, serviceId, name⟩
         nextId := db.nextId + 1 }, db.nextId)

/-- `put_manifest`. -/
def putManifest (db : Database) (repositoryId : Uuid) (digest : String)
    (manifest : Registry.HostedManifest) : Database :=
  { db with hostedManifests := db.hostedManifests.insert (repositoryId, digest) manifest }

/-- `delete_manifest`. -/
def deleteManifest (db : Database) (repositoryId : Uuid) (digest : String) : Database :=
  { db with hostedManifests := db.hostedManifests.erase (repositoryId, digest) }

/-- `all_manifest_digests`: what the garbage collector starts from. -/
def allManifestDigests (db : Database) : List String :=
  (db.hostedManifests.keys.map (·.2)).dedup

/-! ## §7. The first database. -/

/-- The project `run_migrations` creates. -/
def defaultProject : Project :=
  { id := 1, name := "default", description := none, sharedEnv := [],
    defaultResourceLimits := none, createdAt := 0 }

/-- The database after `run_migrations` on an empty file. -/
def migrated : Database where
  projects := (∅ : AList fun _ : Uuid => ProjectRow).insert 1 ⟨"default", defaultProject⟩
  users := ∅
  projectMembers := ∅
  services := ∅
  serviceDomains := ∅
  promotedDeployments := ∅
  inFlight := ∅
  registries := ∅
  jobs := ∅
  hostedRepositories := ∅
  hostedManifests := ∅
  nextId := 2

end Database

end Denia.Tenancy
