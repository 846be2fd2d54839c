/-
  Denia.Autoscale.Lifecycle — bringing one replica up and taking one down
  (`src/autoscale/lifecycle.rs`), on the state the controller owns.

  What the outside answers (does a child start, on which socket, does it pass its
  health check, does it stop, what do the cgroups read, does a store call succeed,
  what time is it) is an arbitrary function of the NUMBER of the call, so one
  `Env` stands for every sequence of answers.

  `launch_replica` is cut at its numbered steps, each a definition of its own: the
  activation machine cuts the same steps at their await points.
-/
import Denia.Autoscale.Ledger
import Denia.Autoscale.Registry
import Denia.Autoscale.Scaler
import Denia.Ingress.Pool
import Denia.Runtime.Tracked

namespace Denia.Autoscale

/-- What the host answers to the `n`-th call. -/
structure Env where
  start : Nat → RuntimeStartRequest → Except String String
  health : Nat → String → HealthCheck → Bool
  stop : Nat → RuntimeInstanceId → StopResult
  usage : Nat → Uuid → ServiceUsage
  store : Nat → Bool
  now : Nat → Nat

/-- One `drain_replica` call (HISTORY): the limits it was given to release, and the
limits the ledger had been charged for the replica. -/
structure DrainRecord where
  replicaId : Uuid
  limits : ResourceLimits
  reserved : Option ResourceLimits

/-- The controller, the runtime and the ingress pools it works on, and the
`autoscale_desired` table.  `calls` numbers the calls to the outside; `drains` is
a history of the `drain_replica` calls that no function reads. -/
structure Controller where
  registry : ReplicaRegistry
  ledger : ResourceLedger
  runtime : Runtime
  ingress : Pools
  desired : AList fun _ : Uuid => Nat
  cooldowns : AList fun _ : Uuid => CooldownState
  calls : Nat
  drains : List DrainRecord

/-- `LaunchSpec`. -/
structure LaunchSpec where
  serviceName : String
  serviceId : Uuid
  deploymentId : Uuid
  replicaIndex : Nat
  artifact : String
  internalPort : Nat
  limits : ResourceLimits
  env : List (String × String)
  healthCheck : HealthCheck
  deriving DecidableEq

/-- `LifecycleError`. -/
inductive LifecycleError where
  | capacity
  | runtime (error : String)
  | health

/-- `LifecycleError`'s `Display`. -/
def LifecycleError.text : LifecycleError → String
  | .capacity => "insufficient capacity"
  | .runtime e => "runtime error: " ++ e
  | .health => "health check failed"

/-- The request of step 2. -/
def LaunchSpec.request (spec : LaunchSpec) : RuntimeStartRequest where
  serviceName := spec.serviceName
  serviceId := spec.serviceId
  deploymentId := spec.deploymentId
  artifact := spec.artifact
  internalPort := spec.internalPort
  cpuMillis := spec.limits.cpuMillis
  memoryBytes := spec.limits.memoryBytes
  env := spec.env
  replicaIndex := spec.replicaIndex

namespace Controller

/-! ## §1. Single calls. -/

/-- `ledger.try_reserve`. -/
def reserve (limits : ResourceLimits) (c : Controller) : Option Controller :=
  (c.ledger.tryReserve limits).map fun ledger => { c with ledger := ledger }

/-- `ledger.release`. -/
def release (limits : ResourceLimits) (c : Controller) : Controller :=
  { c with ledger := c.ledger.release limits }

/-- `runtime.start`: the reported socket, or the error. -/
def runtimeStart (env : Env) (request : RuntimeStartRequest) (c : Controller) :
    Controller × Except String String :=
  match env.start c.calls request with
  | .error e => ({ c with calls := c.calls + 1 }, .error e)
  | .ok socket =>
      ({ c with calls := c.calls + 1, runtime := c.runtime.started request socket }, .ok socket)

/-- `runtime.stop`. -/
def runtimeStop (env : Env) (instanceId : RuntimeInstanceId) (c : Controller) : Controller :=
  { c with
    calls := c.calls + 1
    runtime := c.runtime.stop instanceId (env.stop c.calls instanceId) }

/-- `store.set_desired_replicas(..).ok()`. -/
def setDesired (env : Env) (serviceId : Uuid) (n : Nat) (c : Controller) : Controller :=
  { c with
    calls := c.calls + 1
    desired := if env.store c.calls then c.desired.insert serviceId n else c.desired }

/-- `store.get_desired_replicas(..).ok().flatten()`. -/
def getDesired (env : Env) (serviceId : Uuid) (c : Controller) : Controller × Option Nat :=
  ({ c with calls := c.calls + 1 },
    if env.store c.calls then c.desired.lookup serviceId else none)

/-! ## §2. `launch_replica`. -/

/-- Step 3: `registry.add`, in state `Pending`. -/
def register (spec : LaunchSpec) (socket : String) (c : Controller) : Controller × Uuid :=
  let added := c.registry.add spec.serviceId spec.deploymentId spec.replicaIndex socket spec.limits
  ({ c with registry := added.1 }, added.2)

/-- Step 4: `ingress.add_replica`. -/
def addEndpoint (env : Env) (serviceId replicaId : Uuid) (socket : String) (c : Controller) :
    Controller :=
  { c with
    calls := c.calls + 1
    ingress := c.ingress.addReplica (env.now c.calls) serviceId replicaId socket }

/-- Take a replica out of the registry and out of its pool. -/
def forget (serviceId replicaId : Uuid) (c : Controller) : Controller :=
  { c with
    registry := c.registry.remove replicaId
    ingress := c.ingress.removeReplica serviceId replicaId }

/-- The rollback of step 5. -/
def rollback (env : Env) (spec : LaunchSpec) (replicaId : Uuid) (c : Controller) : Controller :=
  ((c.runtimeStop env ⟨spec.serviceId, spec.replicaIndex⟩).release spec.limits).forget
    spec.serviceId replicaId

/-- Set the registry state and the endpoint's health together. -/
def mark (serviceId replicaId : Uuid) (state : ReplicaState) (healthy : Bool) (c : Controller) :
    Controller :=
  { c with
    registry := c.registry.setState replicaId state
    ingress := c.ingress.setReplicaHealthy serviceId replicaId healthy }

/-- `health.check`. -/
def healthCheck (env : Env) (spec : LaunchSpec) (socket : String) (c : Controller) :
    Controller × Bool :=
  ({ c with calls := c.calls + 1 }, env.health c.calls socket spec.healthCheck)

/-- `launch_replica`. -/
def launchReplica (env : Env) (spec : LaunchSpec) (c : Controller) :
    Controller × Except LifecycleError Uuid :=
  match c.reserve spec.limits with
  | none => (c, .error .capacity)
  | some c =>
      match c.runtimeStart env spec.request with
      | (c, .error e) => (c.release spec.limits, .error (.runtime e))
      | (c, .ok socket) =>
          let (c, replicaId) := c.register spec socket
          let c := c.addEndpoint env spec.serviceId replicaId socket
          match c.healthCheck env spec socket with
          | (c, false) => (c.rollback env spec replicaId, .error .health)
          | (c, true) => (c.mark spec.serviceId replicaId .healthy true, .ok replicaId)

/-! ## §3. `drain_replica`. -/

/-- `drain_replica`.  The error of `runtime.stop` is ignored. -/
def drainReplica (env : Env) (serviceId replicaId : Uuid) (instanceId : RuntimeInstanceId)
    (limits : ResourceLimits) (c : Controller) : Controller :=
  let reserved := (c.registry.replicas.find? (·.id == replicaId)).map (·.reserved)
  let record : DrainRecord := ⟨replicaId, limits, reserved⟩
  let c := { c with drains := c.drains ++ [record] }
  let c := c.mark serviceId replicaId .draining false
  let c := c.runtimeStop env instanceId
  (c.release limits).forget serviceId replicaId

end Controller

/-! ## §4. What a launch can do. -/

/-- The four ways out of `launch_replica`, each with the state it leaves. -/
inductive Launched (env : Env) (spec : LaunchSpec) (c : Controller) :
    Controller × Except LifecycleError Uuid → Prop
  | denied (h : c.ledger.tryReserve spec.limits = none) :
      Launched env spec c (c, .error .capacity)
  | notStarted {ledger : ResourceLedger} {e : String}
      (h : c.ledger.tryReserve spec.limits = some ledger)
      (hstart : env.start c.calls spec.request = .error e) :
      Launched env spec c
        ({ c with ledger := ledger.release spec.limits, calls := c.calls + 1 }, .error (.runtime e))
  | unhealthy {ledger : ResourceLedger} {socket : String}
      (h : c.ledger.tryReserve spec.limits = some ledger)
      (hstart : env.start c.calls spec.request = .ok socket) :
      Launched env spec c
        ({ c with
           registry := (c.registry.add spec.serviceId spec.deploymentId spec.replicaIndex socket
             spec.limits).1.remove c.registry.nextId
           ledger := ledger.release spec.limits
           runtime := (c.runtime.started spec.request socket).stop
             ⟨spec.serviceId, spec.replicaIndex⟩
             (env.stop (c.calls + 3) ⟨spec.serviceId, spec.replicaIndex⟩)
           ingress := (c.ingress.addReplica (env.now (c.calls + 1)) spec.serviceId
             c.registry.nextId socket).removeReplica spec.serviceId c.registry.nextId
           calls := c.calls + 4 }, .error .health)
  | healthy {ledger : ResourceLedger} {socket : String}
      (h : c.ledger.tryReserve spec.limits = some ledger)
      (hstart : env.start c.calls spec.request = .ok socket) :
      Launched env spec c
        ({ c with
           registry := (c.registry.add spec.serviceId spec.deploymentId spec.replicaIndex socket
             spec.limits).1.setState c.registry.nextId .healthy
           ledger := ledger
           runtime := c.runtime.started spec.request socket
           ingress := (c.ingress.addReplica (env.now (c.calls + 1)) spec.serviceId
             c.registry.nextId socket).setReplicaHealthy spec.serviceId c.registry.nextId true
           calls := c.calls + 3 }, .ok c.registry.nextId)

theorem launchReplica_launched (env : Env) (spec : LaunchSpec) (c : Controller) :
    Launched env spec c (c.launchReplica env spec) := by
  unfold Controller.launchReplica Controller.reserve
  cases hreserve : c.ledger.tryReserve spec.limits with
  | none => exact .denied hreserve
  | some =>
    simp only [Option.map_some, Controller.runtimeStart]
    cases hstart : env.start c.calls spec.request with
    | error => exact .notStarted hreserve hstart
    | ok socket =>
      simp only [Controller.register, Controller.addEndpoint, Controller.healthCheck]
      cases env.health (c.calls + 1 + 1) socket spec.healthCheck with
      | false => exact .unhealthy hreserve hstart
      | true => exact .healthy hreserve hstart

/-! ## §5. A calm environment. -/

/-- A host on which every call succeeds. -/
def calmEnv : Env where
  start _ _ := .ok "/run/denia/web-0.sock"
  health _ _ _ := true
  stop _ _ := .stopped
  usage _ _ := { avgCpuPct := 50, avgMemPct := 0, liveReadings := 1 }
  store _ := true
  now _ := 0

end Denia.Autoscale
