/-
  Denia.Deploy.Coordinator — the deploy pipeline and the stop path
  (`src/deploy/coordinator.rs`), one CALL at a time.

  A deploy task (`run_with_deps`, or the inline `deploy`) and a stop task (`stop_service`,
  `stop_service_routes_only`) are program counters over their repository, runtime and ingress
  calls.  `next` reads the source off line by line: given the answer to the call at the
  counter, the EFFECT of the call and the next counter.  Running a task alone is replaying it
  with a list of answers; concurrent tasks take turns.

  An external answer is arbitrary: any repository call can fail, a start can report any socket,
  a stop can fail with the child tracked or removed.  `promote_deployment` runs two statements
  and no transaction, so it can also fail BETWEEN them, with the outgoing row demoted.
-/
import Denia.Deploy.Store
import Denia.Lib.Run

namespace Denia.Deploy

open Autoscale Lib

/-- `DEPLOY_REPLICA_ID`. -/
def deployReplicaId : Uuid := Uuid.nil

/-- `DeployError`. -/
inductive DeployError where
  | repo (reason : String)
  | runtime (reason : String)
  | health (reason : String)
  | ingress (error : IngressError)
  | routesLockPoisoned
  | unsupportedServiceSource
  | unsupportedGitSource
  | noExistingArtifact
  | artifactAcquire (reason : String)
  deriving DecidableEq

/-- What the outside answers to a call. -/
inductive Answer where
  | ok
  | failed (reason : String)
  /-- A promotion fails after its first statement. -/
  | halfDone (reason : String)
  | acquired (digest : String)
  | started (socket : String)
  | stopped (result : StopResult)
  deriving DecidableEq

/-- The daemon's state: the database, the controller with the runtime and the pools,
the `SharedRoutes` snapshot and the live route table. -/
structure World where
  store : Store
  ctl : Controller
  snapshot : RouteSnapshot
  routes : RouteTable
  clock : Nat

/-! ## §1. The effects of calls. -/

/-- What a call changes. -/
inductive Effect where
  | nothing
  | setStatus (deploymentId : Uuid) (status : DeploymentStatus)
  | putArtifact (digest : String)
  | setArtifact (deploymentId : Uuid) (digest : String)
  | promote (serviceId deploymentId : Uuid)
  | demote (serviceId deploymentId : Uuid)
  | clearPromoted (serviceId : Uuid)
  | start (request : RuntimeStartRequest) (socket : String)
  | stop (instanceId : RuntimeInstanceId) (result : StopResult)
  | addEndpoint (serviceId : Uuid) (socket : String)
  | endpointHealthy (serviceId : Uuid)
  | removeEndpoint (serviceId : Uuid)
  | route (spec : RouteSpec)
  | unroute (serviceId : Uuid)

namespace World

/-- Change the database. -/
def onStore (w : World) (f : Store → Store) : World := { w with store := f w.store }

/-- Change the runtime's table of children. -/
def onRuntime (w : World) (f : Runtime → Runtime) : World :=
  { w with ctl := { w.ctl with runtime := f w.ctl.runtime } }

/-- Change the ingress pools. -/
def onIngress (w : World) (f : Pools → Pools) : World :=
  { w with ctl := { w.ctl with ingress := f w.ctl.ingress } }

/-- Put a snapshot in place, and swap in the table built from it if it can be built. -/
def putSnapshot (w : World) (snapshot : RouteSnapshot) : World :=
  match routeTableFromSnapshot snapshot with
  | .error _ => { w with snapshot := snapshot }
  | .ok table => { w with snapshot := snapshot, routes := table }

/-- The world after a call. -/
def apply (w : World) : Effect → World
  | .nothing => w
  | .setStatus deploymentId status => w.onStore (·.updateDeploymentStatus deploymentId status)
  | .putArtifact digest => w.onStore (·.putArtifact digest)
  | .setArtifact deploymentId digest => w.onStore (·.setDeploymentArtifact deploymentId digest)
  | .promote serviceId deploymentId => w.onStore (·.promoteDeployment serviceId deploymentId)
  | .demote serviceId deploymentId => w.onStore (·.demoteOutgoing serviceId deploymentId)
  | .clearPromoted serviceId => w.onStore (·.clearPromotedDeployment serviceId)
  | .start request socket => w.onRuntime (·.started request socket)
  | .stop instanceId result => w.onRuntime (·.stop instanceId result)
  | .addEndpoint serviceId socket =>
      w.onIngress (·.addReplica w.clock serviceId deployReplicaId socket)
  | .endpointHealthy serviceId => w.onIngress (·.setReplicaHealthy serviceId deployReplicaId true)
  | .removeEndpoint serviceId => w.onIngress (·.removeReplica serviceId deployReplicaId)
  | .route spec => w.putSnapshot (w.snapshot.insert spec.serviceId spec)
  | .unroute serviceId => w.putSnapshot (w.snapshot.erase serviceId)

/-- Rebuilding the routes touches nothing else. -/
theorem putSnapshot_ctl (w : World) (snapshot : RouteSnapshot) :
    (w.putSnapshot snapshot).ctl = w.ctl := by
  unfold putSnapshot
  split <;> rfl

theorem putSnapshot_store (w : World) (snapshot : RouteSnapshot) :
    (w.putSnapshot snapshot).store = w.store := by
  unfold putSnapshot
  split <;> rfl

end World

/-! ## §2. The deploy task. -/

/-- The calls of `run_inner_with_deps`, `finalize`, `finalize_started`,
`compensate_started_replica` and `deploy`, in the order of the source. -/
inductive DeployPc where
  | building
  | acquire
  | redeployPromoted
  | redeployArtifact (promoted : Uuid)
  | putArtifact (artifact : String)
  | setArtifact (artifact : String)
  | starting (artifact : String)
  | handoffPromote
  | project (artifact : String)
  | start (project : Project) (artifact : String)
  | health (socket : String)
  | promote (socket : String)
  | addReplica (socket : String)
  | replicaHealthy
  | hostnames
  | routes (hostnames : List String)
  | compensateStop (error : DeployError)
  | compensateRemove (error : DeployError)
  | healthyStatus
  | failedStatus (error : DeployError)
  | done (result : Except DeployError Unit)
  deriving DecidableEq

/-- A deploy in progress: the config it captured when it was accepted, and whether it
runs under `run_with_deps`, which records a failure in the row. -/
structure DeployTask where
  deploymentId : Uuid
  service : ServiceConfig
  request : DeploymentRequest
  recorded : Bool
  pc : DeployPc

namespace DeployTask

/-- `run_with_deps`. -/
def runWithDeps (deploymentId : Uuid) (service : ServiceConfig) (request : DeploymentRequest) :
    DeployTask :=
  { deploymentId, service, request, recorded := true, pc := .building }

/-- `deploy`, past `create_deployment`. -/
def deploy (deploymentId : Uuid) (service : ServiceConfig) (artifact : String) : DeployTask :=
  { deploymentId, service, request := .redeploy, recorded := false, pc := .putArtifact artifact }

/-- An error before anything was started. -/
def fail (t : DeployTask) (e : DeployError) : DeployPc :=
  if t.recorded then .failedStatus e else .done (.error e)

/-- An error while wiring up: a plain service compensates first. -/
def failWired (t : DeployTask) (e : DeployError) : DeployPc :=
  if t.service.autoscale.isSome then t.fail e else .compensateStop e

/-- Where the artifact comes from. -/
def acquirePc (t : DeployTask) : DeployPc :=
  match t.request, t.service.source with
  | .externalImage, .externalImage => .acquire
  | .externalImage, _ => t.fail .unsupportedServiceSource
  | .git, .git => .acquire
  | .git, _ => t.fail .unsupportedGitSource
  | .upload, _ => .acquire
  | .redeploy, _ => .redeployPromoted

/-- The head of `finalize`. -/
def finalizePc (t : DeployTask) (artifact : String) : DeployPc :=
  if t.service.autoscale.isSome then .handoffPromote else .project artifact

/-- The start request of a plain service. -/
def startRequest (t : DeployTask) (project : Project) (artifact : String) :
    RuntimeStartRequest where
  serviceName := t.service.name
  serviceId := t.service.id
  deploymentId := t.deploymentId
  artifact := artifact
  internalPort := t.service.internalPort
  cpuMillis := (t.service.effectiveLimits project).cpuMillis
  memoryBytes := (t.service.effectiveLimits project).memoryBytes
  env := t.service.effectiveEnv project
  replicaIndex := 0

/-- The route of `write_route_table`. -/
def routeSpec (t : DeployTask) (hostnames : List String) : RouteSpec :=
  { serviceId := t.service.id, serviceName := t.service.name, domains := hostnames
    tls := t.service.tlsEnabled }

/-- The effect of the call at the counter and the next counter, given its answer. -/
def next (w : World) (t : DeployTask) : Answer → Option (Effect × DeployPc) := fun answer =>
  match t.pc, answer with
  | .building, .ok => some (.setStatus t.deploymentId .building, t.acquirePc)
  | .building, .failed e => some (.nothing, t.fail (.repo e))
  | .acquire, .acquired digest => some (.nothing, .putArtifact digest)
  | .acquire, .failed e => some (.nothing, t.fail (.artifactAcquire e))
  | .redeployPromoted, .ok =>
      match w.store.promotedDeployment t.service.id with
      | none => some (.nothing, t.fail .noExistingArtifact)
      | some promoted => some (.nothing, .redeployArtifact promoted)
  | .redeployPromoted, .failed e => some (.nothing, t.fail (.repo e))
  | .redeployArtifact promoted, .ok =>
      match w.store.getDeploymentArtifact promoted with
      | none => some (.nothing, t.fail .noExistingArtifact)
      | some artifact => some (.nothing, .putArtifact artifact)
  | .redeployArtifact _, .failed e => some (.nothing, t.fail (.repo e))
  | .putArtifact artifact, .ok => some (.putArtifact artifact, .setArtifact artifact)
  | .putArtifact _, .failed e => some (.nothing, t.fail (.repo e))
  | .setArtifact artifact, .ok =>
      some (.setArtifact t.deploymentId artifact,
        if t.recorded then .starting artifact else t.finalizePc artifact)
  | .setArtifact _, .failed e => some (.nothing, t.fail (.repo e))
  | .starting artifact, .ok =>
      some (.setStatus t.deploymentId .starting, t.finalizePc artifact)
  | .starting _, .failed e => some (.nothing, t.fail (.repo e))
  -- an autoscaled service: promote and route, the controller launches
  | .handoffPromote, .ok => some (.promote t.service.id t.deploymentId, .hostnames)
  | .handoffPromote, .failed e => some (.nothing, t.fail (.repo e))
  | .handoffPromote, .halfDone e => some (.demote t.service.id t.deploymentId, t.fail (.repo e))
  | .project artifact, .ok =>
      match w.store.getProject t.service.projectId with
      | none => some (.nothing, t.fail (.repo "unknown project"))
      | some project => some (.nothing, .start project artifact)
  | .project _, .failed e => some (.nothing, t.fail (.repo e))
  | .start project artifact, .started socket =>
      some (.start (t.startRequest project artifact) socket, .health socket)
  | .start _ _, .failed e => some (.nothing, t.fail (.runtime e))
  | .health socket, .ok => some (.nothing, .promote socket)
  | .health _, .failed e => some (.nothing, t.failWired (.health e))
  | .promote socket, .ok => some (.promote t.service.id t.deploymentId, .addReplica socket)
  | .promote _, .failed e => some (.nothing, t.failWired (.repo e))
  | .promote _, .halfDone e => some (.demote t.service.id t.deploymentId, t.failWired (.repo e))
  | .addReplica socket, .ok => some (.addEndpoint t.service.id socket, .replicaHealthy)
  | .replicaHealthy, .ok => some (.endpointHealthy t.service.id, .hostnames)
  | .hostnames, .ok =>
      match w.store.listVerifiedHostnames t.service.id with
      | [] => some (.nothing, .healthyStatus)
      | hostnames => some (.nothing, .routes hostnames)
  | .hostnames, .failed e => some (.nothing, t.failWired (.repo e))
  | .routes hostnames, .ok =>
      match routeTableFromSnapshot (w.snapshot.insert t.service.id (t.routeSpec hostnames)) with
      | .ok _ => some (.route (t.routeSpec hostnames), .healthyStatus)
      | .error e => some (.route (t.routeSpec hostnames), t.failWired (.ingress e))
  | .routes _, .failed _ => some (.nothing, t.failWired .routesLockPoisoned)
  | .compensateStop e, .stopped result =>
      some (.stop ⟨t.service.id, 0⟩ result, .compensateRemove e)
  | .compensateRemove e, .ok => some (.removeEndpoint t.service.id, t.fail e)
  | .healthyStatus, .ok => some (.setStatus t.deploymentId .healthy, .done (.ok ()))
  | .healthyStatus, .failed e => some (.nothing, t.fail (.repo e))
  -- the failure of recording a failure is ignored
  | .failedStatus e, .ok => some (.setStatus t.deploymentId .failed, .done (.error e))
  | .failedStatus e, .failed _ => some (.nothing, .done (.error e))
  | _, _ => none

end DeployTask

/-! ## §3. The stop task. -/

/-- The calls of `stop_service` and `stop_service_routes_only`. -/
inductive StopPc where
  | readPromoted
  | runtimeStop (promoted : Option Uuid)
  | removeReplica (promoted : Option Uuid)
  | routes (promoted : Option Uuid)
  | stoppedStatus (deploymentId : Uuid)
  | clearPromoted (deploymentId : Uuid)
  | done (result : Except DeployError Unit)
  deriving DecidableEq

/-- A stop in progress. -/
structure StopTask where
  serviceId : Uuid
  routesOnly : Bool
  pc : StopPc

namespace StopTask

/-- `stop_service`, or `stop_service_routes_only`. -/
def start (serviceId : Uuid) (routesOnly : Bool) : StopTask :=
  { serviceId, routesOnly, pc := .readPromoted }

/-- The effect of the call at the counter and the next counter, given its answer. -/
def next (w : World) (t : StopTask) : Answer → Option (Effect × StopPc) := fun answer =>
  match t.pc, answer with
  | .readPromoted, .ok =>
      let promoted := w.store.promotedDeployment t.serviceId
      some (.nothing, if t.routesOnly then .routes promoted else .runtimeStop promoted)
  | .readPromoted, .failed e => some (.nothing, .done (.error (.repo e)))
  | .runtimeStop promoted, .stopped result =>
      some (.stop ⟨t.serviceId, 0⟩ result,
        if result = .stopped then .removeReplica promoted
        else .done (.error (.runtime "stop failed")))
  | .removeReplica promoted, .ok => some (.removeEndpoint t.serviceId, .routes promoted)
  | .routes promoted, .ok =>
      match routeTableFromSnapshot (w.snapshot.erase t.serviceId) with
      | .error e => some (.unroute t.serviceId, .done (.error (.ingress e)))
      | .ok _ =>
          some (.unroute t.serviceId,
            match promoted with
            | none => .done (.ok ())
            | some deploymentId => .stoppedStatus deploymentId)
  | .routes _, .failed _ => some (.nothing, .done (.error .routesLockPoisoned))
  | .stoppedStatus deploymentId, .ok =>
      some (.setStatus deploymentId .stopped, .clearPromoted deploymentId)
  | .stoppedStatus _, .failed e => some (.nothing, .done (.error (.repo e)))
  | .clearPromoted _, .ok => some (.clearPromoted t.serviceId, .done (.ok ()))
  | .clearPromoted _, .failed e => some (.nothing, .done (.error (.repo e)))
  | _, _ => none

end StopTask

/-! ## §4. Running one task alone. -/

/-- One call of a deploy task. -/
def deployStep (s : World × DeployTask) (answer : Answer) : Option (World × DeployTask) :=
  (s.2.next s.1 answer).map fun (effect, pc) => (s.1.apply effect, { s.2 with pc := pc })

/-- One call of a stop task. -/
def stopStep (s : World × StopTask) (answer : Answer) : Option (World × StopTask) :=
  (s.2.next s.1 answer).map fun (effect, pc) => (s.1.apply effect, { s.2 with pc := pc })

variable {w w' : World}

theorem deployStep_eq {t t' : DeployTask} {answer : Answer}
    (h : deployStep (w, t) answer = some (w', t')) :
    ∃ effect pc, t.next w answer = some (effect, pc) ∧ w' = w.apply effect ∧
      t' = { t with pc := pc } := by
  obtain ⟨⟨effect, pc⟩, hnext, heq⟩ := Option.map_eq_some_iff.mp h
  injection heq with hw ht
  exact ⟨effect, pc, hnext, hw.symm, ht.symm⟩

theorem stopStep_eq {t t' : StopTask} {answer : Answer}
    (h : stopStep (w, t) answer = some (w', t')) :
    ∃ effect pc, t.next w answer = some (effect, pc) ∧ w' = w.apply effect ∧
      t' = { t with pc := pc } := by
  obtain ⟨⟨effect, pc⟩, hnext, heq⟩ := Option.map_eq_some_iff.mp h
  injection heq with hw ht
  exact ⟨effect, pc, hnext, hw.symm, ht.symm⟩

/-! ## §5. A world to start from. -/

/-- A service with nothing deployed. -/
def idleWorld : World where
  store := {
    services := ∅
    projects := AList.insert 2 ⟨2, [], none⟩ ∅
    deployments := ∅
    artifacts := []
    promoted := ∅
    domains := []
    nextId := 3
    services_id := by rintro id svc h; cases h
    domain_id_unique := List.nodup_nil
    hostname_unique := List.nodup_nil }
  ctl := .fresh ⟨4000, 4294967296⟩ ⟨0, 0⟩ ⟨∅⟩ ⟨∅⟩ ∅
  snapshot := ∅
  routes := .empty
  clock := 0

end Denia.Deploy
