/-
  Denia.Deploy.Store — the tables behind services, deployments and domains
  (`src/repo/sqlite/{services,deployments,domains,projects}.rs`), and the service
  catalog the autoscaler reads from them (`src/autoscale/catalog.rs`).

  Each repository call runs one statement, or a few under one connection lock, so
  it is one atomic change of the store.  Keys are ids.
-/
import Denia.Autoscale.Controller
import Denia.Ingress.Routes
import Mathlib.Data.List.Sort

namespace Denia.Deploy

open Autoscale Verification

/-- `DeploymentStatus`. -/
inductive DeploymentStatus where
  | pending
  | building
  | starting
  | healthy
  | failed
  | stopped
  | inactive
  deriving DecidableEq

/-- `DomainStatus`. -/
inductive DomainStatus where
  | pending
  | verified
  | failed
  deriving DecidableEq

/-- Which kind of source a service builds from. -/
inductive ServiceSource where
  | git
  | externalImage
  | upload
  deriving DecidableEq

/-- Which kind of deployment is asked for. -/
inductive DeploymentRequest where
  | git
  | externalImage
  | upload
  | redeploy

/-- `ServiceConfig`, past `ServiceConfig::validate`; the extra endpoints have no reader here. -/
structure ServiceConfig where
  id : Uuid
  projectId : Uuid
  name : String
  domains : List String := []
  source : ServiceSource
  internalPort : Nat
  healthCheck : HealthCheck
  resourceLimits : Option ResourceLimits := none
  env : List (String × String) := []
  tlsEnabled : Bool := false
  autoscale : Option AutoscalePolicy := none
  deriving DecidableEq

/-- A service of project 2 that runs an image. -/
def ServiceConfig.plain (id : Uuid) (name : String) : ServiceConfig :=
  { id, name, projectId := 2, source := .externalImage, internalPort := 8080
    healthCheck := ⟨"/healthz", 5⟩ }

/-- `Project`, of it the id. -/
structure Project where
  id : Uuid
  sharedEnv : List (String × String)
  defaultResourceLimits : Option ResourceLimits
  deriving DecidableEq

/-- `effective_limits`. -/
def ServiceConfig.effectiveLimits (svc : ServiceConfig) (project : Project) : ResourceLimits :=
  (svc.resourceLimits.or project.defaultResourceLimits).getD ResourceLimits.default

/-- `effective_env`: the project's variables, overridden by the service's. -/
def ServiceConfig.effectiveEnv (svc : ServiceConfig) (project : Project) : List (String × String) :=
  let put := fun (m : AList fun _ : String => String) (kv : String × String) => m.insert kv.1 kv.2
  let map := svc.env.foldl put (project.sharedEnv.foldl put ∅)
  map.entries.map fun e => (e.1, e.2)

/-- A row of `deployments`. -/
structure DeploymentRow where
  serviceId : Uuid
  status : DeploymentStatus
  artifactDigest : Option String

/-- `ServiceDomain`. -/
structure ServiceDomain where
  id : Uuid
  serviceId : Uuid
  hostname : Hostname
  status : DomainStatus
  deriving DecidableEq

/-- The database.  That a service row holds a config of its own id and that no two
domain rows share an id or a hostname are constraints of the tables.  `nextId` is the
next `Uuid::now_v7()`. -/
structure Store where
  services : AList fun _ : Uuid => ServiceConfig
  projects : AList fun _ : Uuid => Project
  deployments : AList fun _ : Uuid => DeploymentRow
  artifacts : List String
  promoted : AList fun _ : Uuid => Uuid
  domains : List ServiceDomain
  nextId : Uuid
  services_id : ∀ id svc, services.lookup id = some svc → svc.id = id
  domain_id_unique : (domains.map (·.id)).Nodup
  hostname_unique : (domains.map (·.hostname)).Nodup

namespace Store

/-- `get_service`. -/
def getService (db : Store) (id : Uuid) : Option ServiceConfig := db.services.lookup id

/-- `list_services`: `ORDER BY name`. -/
def listServices (db : Store) : List ServiceConfig :=
  (db.services.entries.map (·.2)).insertionSort fun a b => a.name ≤ b.name

/-- `get_project`. -/
def getProject (db : Store) (id : Uuid) : Option Project := db.projects.lookup id

/-- The insert of `put_service_q`. -/
def putService (db : Store) (svc : ServiceConfig) : Store :=
  { db with
    services := db.services.insert svc.id svc
    services_id := by
      intro id svc' h
      by_cases hid : id = svc.id
      · subst hid
        rw [AList.lookup_insert] at h
        injection h with h
        rw [h]
      · rw [AList.lookup_insert_ne hid] at h
        exact db.services_id id svc' h }

/-- `delete_service`. -/
def deleteService (db : Store) (id : Uuid) : Store :=
  { db with
    services := db.services.erase id
    services_id := by
      intro id' svc h
      by_cases hid : id' = id
      · subst hid
        rw [AList.lookup_erase] at h
        cases h
      · rw [AList.lookup_erase_ne hid] at h
        exact db.services_id id' svc h }

/-- `create_deployment`: a pending row under a fresh id. -/
def createDeployment (db : Store) (serviceId : Uuid) : Store × Uuid :=
  ({ db with
     deployments := db.deployments.insert db.nextId ⟨serviceId, .pending, none⟩
     nextId := db.nextId + 1 }, db.nextId)

/-- `update_deployment_status`; an id without a row changes nothing. -/
def updateDeploymentStatus (db : Store) (id : Uuid) (status : DeploymentStatus) : Store :=
  match db.deployments.lookup id with
  | none => db
  | some row => { db with deployments := db.deployments.insert id { row with status := status } }

/-- `put_artifact`. -/
def putArtifact (db : Store) (digest : String) : Store :=
  { db with artifacts := db.artifacts.insert digest }

/-- `set_deployment_artifact`. -/
def setDeploymentArtifact (db : Store) (id : Uuid) (digest : String) : Store :=
  match db.deployments.lookup id with
  | none => db
  | some row =>
      { db with deployments := db.deployments.insert id { row with artifactDigest := some digest } }

/-- `get_deployment_artifact`: the join of the row's digest with the artifacts. -/
def getDeploymentArtifact (db : Store) (id : Uuid) : Option String :=
  match db.deployments.lookup id with
  | none => none
  | some row => row.artifactDigest.filter (· ∈ db.artifacts)

/-- `promoted_deployment`. -/
def promotedDeployment (db : Store) (serviceId : Uuid) : Option Uuid := db.promoted.lookup serviceId

/-- The first statement of `promote_deployment`: the outgoing row, if it is another
one, becomes inactive. -/
def demoteOutgoing (db : Store) (serviceId id : Uuid) : Store :=
  match db.promotedDeployment serviceId with
  | none => db
  | some prev => if prev = id then db else db.updateDeploymentStatus prev .inactive

/-- `promote_deployment`. -/
def promoteDeployment (db : Store) (serviceId id : Uuid) : Store :=
  { db.demoteOutgoing serviceId id with
    promoted := (db.demoteOutgoing serviceId id).promoted.insert serviceId id }

/-- `clear_promoted_deployment`. -/
def clearPromotedDeployment (db : Store) (serviceId : Uuid) : Store :=
  { db with promoted := db.promoted.erase serviceId }

/-- `list_verified_hostnames`. -/
def listVerifiedHostnames (db : Store) (serviceId : Uuid) : List String :=
  (db.domains.filter fun d => d.serviceId = serviceId ∧ d.status = .verified).map (·.hostname.name)

/-- `put_service_domain`: a pending row, unless a constraint of the table is violated. -/
def putServiceDomain (db : Store) (serviceId : Uuid) (hostname : Hostname) : Option Store :=
  if h : hostname ∈ db.domains.map (·.hostname) ∨ db.nextId ∈ db.domains.map (·.id) then none
  else
    some { db with
      domains := db.domains ++ [⟨db.nextId, serviceId, hostname, .pending⟩]
      nextId := db.nextId + 1
      domain_id_unique := by
        rw [List.map_append, List.nodup_append]
        refine ⟨db.domain_id_unique, by simp, ?_⟩
        rintro a ha b hb rfl
        simp only [List.map_cons, List.map_nil, List.mem_singleton] at hb
        exact h (.inr (hb ▸ ha))
      hostname_unique := by
        rw [List.map_append, List.nodup_append]
        refine ⟨db.hostname_unique, by simp, ?_⟩
        rintro a ha b hb rfl
        simp only [List.map_cons, List.map_nil, List.mem_singleton] at hb
        exact h (.inl (hb ▸ ha)) }

/-- `get_service_domain`. -/
def getServiceDomain (db : Store) (id : Uuid) : Option ServiceDomain :=
  db.domains.find? (·.id = id)

/-- `update_service_domain_status`. -/
def updateServiceDomainStatus (db : Store) (id : Uuid) (status : DomainStatus) : Store :=
  { db with
    domains := Lib.updateFirst (·.id = id) (fun d => { d with status := status }) db.domains
    domain_id_unique := by
      have hid : ∀ d : ServiceDomain, ({ d with status := status } : ServiceDomain).id = d.id :=
        fun _ => rfl
      rw [Lib.map_updateFirst hid]
      exact db.domain_id_unique
    hostname_unique := by
      have hname : ∀ d : ServiceDomain, ({ d with status := status } : ServiceDomain).hostname
          = d.hostname := fun _ => rfl
      rw [Lib.map_updateFirst hname]
      exact db.hostname_unique }

/-- `delete_service_domain`. -/
def deleteServiceDomain (db : Store) (id : Uuid) : Store :=
  { db with
    domains := db.domains.filter (·.id ≠ id)
    domain_id_unique := db.domain_id_unique.sublist (List.filter_sublist.map _)
    hostname_unique := db.hostname_unique.sublist (List.filter_sublist.map _) }

/-! ## §1. The service catalog. -/

/-- `RepoServiceCatalog::build`. -/
def catalogBuild (db : Store) (svc : ServiceConfig) : Option ManagedService :=
  match svc.autoscale with
  | none => none
  | some policy =>
      match db.promotedDeployment svc.id with
      | none => none
      | some deploymentId =>
          match db.getDeploymentArtifact deploymentId with
          | none => none
          | some artifact =>
              match db.getProject svc.projectId with
              | none => none
              | some project =>
                  some {
                    serviceName := svc.name
                    serviceId := svc.id
                    deploymentId := deploymentId
                    policy := policy
                    artifact := artifact
                    internalPort := svc.internalPort
                    limits := svc.effectiveLimits project
                    env := svc.effectiveEnv project
                    healthCheck := svc.healthCheck }

/-- `RepoServiceCatalog::resolve`. -/
def catalogResolve (db : Store) (serviceId : Uuid) : Option ManagedService :=
  (db.listServices.find? (·.id = serviceId)).bind db.catalogBuild

/-- `RepoServiceCatalog::all`. -/
def catalogAll (db : Store) : List ManagedService := db.listServices.filterMap db.catalogBuild

/-! ## §2. The services table. -/

theorem mem_listServices {db : Store} {svc : ServiceConfig} :
    svc ∈ db.listServices ↔ db.getService svc.id = some svc := by
  unfold listServices getService
  rw [List.mem_insertionSort]
  constructor
  · intro h
    obtain ⟨⟨id, svc'⟩, he, rfl⟩ := List.mem_map.mp h
    have hlook : db.services.lookup id = some svc' := AList.mem_lookup_iff.mpr he
    have hid := db.services_id id svc' hlook
    show db.services.lookup svc'.id = some svc'
    rwa [hid]
  · intro h
    exact List.mem_map.mpr ⟨⟨svc.id, svc⟩, AList.mem_lookup_iff.mp h, rfl⟩

theorem getService_putService (db : Store) (svc : ServiceConfig) (id : Uuid) :
    (db.putService svc).getService id = if id = svc.id then some svc else db.getService id := by
  unfold putService getService
  by_cases h : id = svc.id
  · rw [if_pos h, h, AList.lookup_insert]
  · rw [if_neg h, AList.lookup_insert_ne h]

theorem getService_deleteService (db : Store) (serviceId id : Uuid) :
    (db.deleteService serviceId).getService id
      = if id = serviceId then none else db.getService id := by
  unfold deleteService getService
  by_cases h : id = serviceId
  · rw [if_pos h, h, AList.lookup_erase]
  · rw [if_neg h, AList.lookup_erase_ne h]

/-- No two rows of the table have one id. -/
theorem listServices_nodup (db : Store) : (db.listServices.map (·.id)).Nodup := by
  have hkeys : (db.services.entries.map (·.2)).map (·.id) = db.services.keys := by
    unfold AList.keys List.keys
    rw [List.map_map]
    refine List.map_congr_left fun e he => ?_
    exact db.services_id e.1 e.2 (AList.mem_lookup_iff.mpr he)
  refine ((List.perm_insertionSort _ _).map _).nodup_iff.mpr ?_
  rw [hkeys]
  exact db.services.keys_nodup

/-! ## §3. The deployments table.

The statements that write a deployment row write nothing else. -/

theorem updateDeploymentStatus_eq (db : Store) (id : Uuid) (status : DeploymentStatus) :
    ∃ rows, db.updateDeploymentStatus id status = { db with deployments := rows } := by
  unfold updateDeploymentStatus
  split <;> exact ⟨_, rfl⟩

theorem setDeploymentArtifact_eq (db : Store) (id : Uuid) (digest : String) :
    ∃ rows, db.setDeploymentArtifact id digest = { db with deployments := rows } := by
  unfold setDeploymentArtifact
  split <;> exact ⟨_, rfl⟩

theorem demoteOutgoing_eq (db : Store) (serviceId id : Uuid) :
    ∃ rows, db.demoteOutgoing serviceId id = { db with deployments := rows } := by
  unfold demoteOutgoing
  split
  · exact ⟨_, rfl⟩
  · split
    · exact ⟨_, rfl⟩
    · exact updateDeploymentStatus_eq db _ _

end Store

end Denia.Deploy
