/-
  Denia.Autoscale.Controller — the autoscaler's operations
  (`src/autoscale/controller.rs`): `tick` with its rollout, idle drain and scaling
  loops, cold-start activation, boot reconcile, single-service reconcile and the
  drain of a stop.

  Every operation takes the catalog snapshot it sees as an argument.  Log lines
  are not modelled; the events are.
-/
import Denia.Autoscale.Lifecycle
import Denia.Lib.AssocMap

namespace Denia.Autoscale

/-- `AutoscaleEvent`. -/
inductive AutoscaleEvent where
  | scaledUp (service : String) (start reached : Nat)
  | scaledDown (service : String) (start reached : Nat)
  | scaleUpDenied (service reason : String)
  | scaledToZero (service : String)
  | rolloutStep (service : String) (toDeployment : Uuid)
  | adopted (service : String) (replicaIndex : Nat)
  | orphanRemoved (service : String) (replicaIndex : Nat)
  deriving DecidableEq

/-- `ManagedService`. -/
structure ManagedService where
  serviceName : String
  serviceId : Uuid
  deploymentId : Uuid
  policy : AutoscalePolicy
  artifact : String
  internalPort : Nat
  limits : ResourceLimits
  env : List (String × String)
  healthCheck : HealthCheck

/-- `ActivationError`. -/
inductive ActivationError where
  | timeout
  | backoff
  | failed (reason : String)
  deriving DecidableEq

/-- `launch_spec`. -/
def launchSpec (ms : ManagedService) (replicaIndex : Nat) : LaunchSpec where
  serviceName := ms.serviceName
  serviceId := ms.serviceId
  deploymentId := ms.deploymentId
  replicaIndex := replicaIndex
  artifact := ms.artifact
  internalPort := ms.internalPort
  limits := ms.limits
  env := ms.env
  healthCheck := ms.healthCheck

/-- The reason of a `ScaleUpDenied` event. -/
def denyReason : LifecycleError → String
  | .capacity => "insufficient_capacity"
  | e => e.text

/-- `iter().max_by_key(|r| r.index)`: the LAST replica of the highest index. -/
def maxByIndex (replicas : List Replica) : Option Replica :=
  replicas.foldl (fun best r =>
    match best with
    | none => some r
    | some b => if b.index ≤ r.index then some r else some b) none

namespace Controller

/-- `next_replica_index`. -/
def nextReplicaIndex (serviceId : Uuid) (c : Controller) : Nat :=
  (((c.registry.replicasOf serviceId).map (·.index)).max?.map (· + 1)).getD 0

/-! ## §1. Scaling loops. -/

/-- The `while current < target` loop, for `n` missing replicas: how many were
launched, and the event of the launch that was denied. -/
def launchUpTo (env : Env) (ms : ManagedService) :
    Nat → Controller → Controller × Nat × List AutoscaleEvent
  | 0, c => (c, 0, [])
  | n + 1, c =>
      match c.launchReplica env (launchSpec ms (c.nextReplicaIndex ms.serviceId)) with
      | (c, .ok _) =>
          let (c, launched, events) := launchUpTo env ms n c
          (c, launched + 1, events)
      | (c, .error e) => (c, 0, [.scaleUpDenied ms.serviceName (denyReason e)])

/-- `drain_replica` as the controller calls it for a replica of `ms`. -/
def drainOf (env : Env) (ms : ManagedService) (replicaId : Uuid) (index : Nat) (c : Controller) :
    Controller :=
  c.drainReplica env ms.serviceId replicaId ⟨ms.serviceId, index⟩ ms.limits

/-- The `while current > desired` loop, for `n` replicas too many: how many were
drained.  `drain_replica` has no error path, so the loop's error arm is dead. -/
def drainDown (env : Env) (ms : ManagedService) : Nat → Controller → Controller × Nat
  | 0, c => (c, 0)
  | n + 1, c =>
      match maxByIndex (c.registry.replicasOf ms.serviceId) with
      | none => (c, 0)
      | some r =>
          let (c, drained) := drainDown env ms n (c.drainOf env ms r.id r.index)
          (c, drained + 1)

/-- The loop of `drain_all_replicas`, over the ids and indices read before it. -/
def drainEach (env : Env) (ms : ManagedService) : List (Uuid × Nat) → Controller → Controller
  | [], c => c
  | (replicaId, index) :: rest, c => drainEach env ms rest (c.drainOf env ms replicaId index)

/-- `drain_all_replicas`. -/
def drainAllReplicas (env : Env) (ms : ManagedService) (c : Controller) : Controller :=
  c.drainEach env ms ((c.registry.replicasOf ms.serviceId).map fun r => (r.id, r.index))

/-! ## §2. `tick`. -/

/-- Step 0 of a tick: roll one replica of an older deployment, `old`, over. -/
def rolloutStep (env : Env) (ms : ManagedService) (old : Replica) (c : Controller) :
    Controller × List AutoscaleEvent :=
  let spec := launchSpec ms (c.nextReplicaIndex ms.serviceId)
  let stepped : AutoscaleEvent := .rolloutStep ms.serviceName ms.deploymentId
  let (c, events) : Controller × List AutoscaleEvent :=
    if c.registry.replicaCount ms.serviceId ≤ 1 then
      -- a single replica: launch, then drain
      match c.launchReplica env spec with
      | (c, .ok _) => (c.drainOf env ms old.id old.index, [stepped])
      | (c, .error e) => (c, [.scaleUpDenied ms.serviceName (denyReason e)])
    else
      -- several: drain, then launch
      match (c.drainOf env ms old.id old.index).launchReplica env spec with
      | (c, .ok _) => (c, [stepped])
      | (c, .error e) => (c, [.scaleUpDenied ms.serviceName (denyReason e)])
  (c.setDesired env ms.serviceId (c.registry.replicaCount ms.serviceId), events)

/-- What steps 1 and 2 of a tick decide for a service without older replicas. -/
inductive TickDecision where
  | hold (count : Nat)
  | scaleToZero
  | reconcile (desired : Nat)

/-- `last_activity` as an idle time, `u64::MAX` without a pool. -/
def idleSecs (env : Env) (serviceId : Uuid) (c : Controller) : Nat :=
  match c.ingress.lastActivity serviceId with
  | some t => env.now c.calls - t
  | none => u64Max

/-- The metric-driven count, with the cooldown of the service. -/
def scaledCount (ms : ManagedService) (nowS start : Nat) (u : ServiceUsage) (c : Controller) :
    Controller × Nat :=
  let up := desiredUp start u.avgCpuPct ms.policy.targetCpuPct (some u.avgMemPct)
    ms.policy.targetMemPct
  let cd := (c.cooldowns.lookup ms.serviceId).getD CooldownState.default
  let put := fun cd => { c with cooldowns := c.cooldowns.insert ms.serviceId cd }
  if start < up then
    (put (cd.noteAboveTarget nowS), clampLoop up ms.policy.minReplicas ms.policy.maxReplicas)
  else
    let down := desiredDown start u.avgCpuPct ms.policy.targetCpuPct
    if down < start then
      let (cd, allowed) := cd.scaleDownAllowed nowS ms.policy.scaleDownCooldownS
      (put cd,
        if allowed then clampLoop down ms.policy.minReplicas ms.policy.maxReplicas else start)
    else (put cd, start)

/-- Steps 1 and 2 of a tick. -/
def tickDecision (env : Env) (ms : ManagedService) (nowS start : Nat) (c : Controller) :
    Controller × TickDecision :=
  if start = 0 then
    if 1 ≤ ms.policy.minReplicas then (c, .reconcile ms.policy.minReplicas) else (c, .hold 0)
  else
    let u := env.usage c.calls ms.serviceId
    let c := { c with calls := c.calls + 1 }
    -- a total read failure is no reading of zero
    if u.liveReadings = 0 then (c, .hold start)
    else if ms.policy.minReplicas = 0 ∧ ms.policy.idleTimeoutS < c.idleSecs env ms.serviceId ∧
        u.avgCpuPct < ms.policy.targetCpuPct then (c, .scaleToZero)
    else
      let (c, desired) := c.scaledCount ms nowS start u
      (c, .reconcile desired)

/-- Step 3 of a tick: launch or drain toward `desired`, and the event that tells
the count reached. -/
def reconcileTo (env : Env) (ms : ManagedService) (start desired : Nat) (c : Controller) :
    Controller × Nat × List AutoscaleEvent :=
  let (c, launched, denied) := c.launchUpTo env ms (desired - start)
  let (c, drained) := c.drainDown env ms (start + launched - desired)
  let current := start + launched - drained
  let moved : List AutoscaleEvent :=
    if start < current then [.scaledUp ms.serviceName start current]
    else if current < start then [.scaledDown ms.serviceName start current]
    else []
  (c, current, denied ++ moved)

/-- One service of a tick. -/
def tickService (env : Env) (nowS : Nat) (ms : ManagedService) (c : Controller) :
    Controller × List AutoscaleEvent :=
  let start := c.registry.replicaCount ms.serviceId
  match (c.registry.replicasOf ms.serviceId).find? (·.deploymentId ≠ ms.deploymentId) with
  | some old => c.rolloutStep env ms old
  | none =>
      match c.tickDecision env ms nowS start with
      | (c, .hold count) => (c.setDesired env ms.serviceId count, [])
      | (c, .scaleToZero) =>
          ((c.drainAllReplicas env ms).setDesired env ms.serviceId 0,
            [.scaledToZero ms.serviceName])
      | (c, .reconcile desired) =>
          let (c, current, events) := c.reconcileTo env ms start desired
          (c.setDesired env ms.serviceId current, events)

/-- The service loop of a tick. -/
def tickServices (env : Env) (nowS : Nat) :
    List ManagedService → Controller → Controller × List AutoscaleEvent
  | [], c => (c, [])
  | ms :: rest, c =>
      let (c, events) := c.tickService env nowS ms
      let (c, more) := tickServices env nowS rest c
      (c, events ++ more)

/-- `tick`: the service loop, then cooldowns of unmanaged services are pruned. -/
def tick (env : Env) (services : List ManagedService) (nowS : Nat) (c : Controller) :
    Controller × List AutoscaleEvent :=
  let (c, events) := c.tickServices env nowS services
  ({ c with cooldowns := Lib.restrict c.cooldowns (· ∈ services.map (·.serviceId)) }, events)

/-! ## §3. Activation, reconcile and drain. -/

/-- `activate_one`, on what the catalog resolves the service to. -/
def activateOne (env : Env) (resolved : Option ManagedService) (c : Controller) :
    Controller × Except ActivationError Unit :=
  match resolved with
  | none => (c, .error (.failed "unknown service"))
  | some ms =>
      if 1 ≤ c.registry.replicaCount ms.serviceId then (c, .ok ())
      else if ms.policy.maxReplicas = 0 then (c, .ok ())
      else
        match c.launchReplica env (launchSpec ms 0) with
        | (c, .ok _) => (c, .ok ())
        | (c, .error .capacity) => (c, .error (.failed "insufficient_capacity"))
        | (c, .error .health) => (c, .error (.failed "health"))
        | (c, .error (.runtime e)) => (c, .error (.failed e))

/-- `top_up_to_desired`. -/
def topUpToDesired (env : Env) (ms : ManagedService) (c : Controller) :
    Controller × List AutoscaleEvent :=
  let (c, persisted) := c.getDesired env ms.serviceId
  let target := clamp (persisted.getD ms.policy.minReplicas) ms.policy.minReplicas
    ms.policy.maxReplicas
  let start := c.registry.replicaCount ms.serviceId
  let (c, launched, denied) := c.launchUpTo env ms (target - start)
  let moved : List AutoscaleEvent :=
    if 0 < launched then [.scaledUp ms.serviceName start (start + launched)] else []
  (c.setDesired env ms.serviceId (start + launched), denied ++ moved)

/-- Register a workload that survived a restart, once its budget is reserved. -/
def adopt (env : Env) (ms : ManagedService) (status : RuntimeStatus) (c : Controller) :
    Controller :=
  let added := c.registry.add ms.serviceId status.deploymentId status.replicaIndex
    status.socketPath ms.limits
  { c with
    calls := c.calls + 1
    registry := added.1.setState added.2 .healthy
    ingress := (c.ingress.addReplica (env.now c.calls) ms.serviceId added.2
      status.socketPath).setReplicaHealthy ms.serviceId added.2 true }

/-- One running workload of a boot reconcile: adopted, or stopped as an orphan. -/
def adoptOrStop (env : Env) (services : List ManagedService) (status : RuntimeStatus)
    (c : Controller) : Controller × AutoscaleEvent :=
  let orphan : Controller × AutoscaleEvent :=
    (c.runtimeStop env ⟨status.serviceId, status.replicaIndex⟩,
      .orphanRemoved status.serviceName status.replicaIndex)
  match services.find? (·.serviceId = status.serviceId) with
  | none => orphan
  | some ms =>
      if status.deploymentId = ms.deploymentId then
        match c.reserve ms.limits with
        | some c => (c.adopt env ms status, .adopted ms.serviceName status.replicaIndex)
        | none => orphan
      else orphan

/-- The adoption loop of a boot reconcile. -/
def adoptRunning (env : Env) (services : List ManagedService) :
    List RuntimeStatus → Controller → Controller × List AutoscaleEvent
  | [], c => (c, [])
  | status :: rest, c =>
      let (c, event) := c.adoptOrStop env services status
      let (c, more) := adoptRunning env services rest c
      (c, event :: more)

/-- The top-up loop of a boot reconcile. -/
def topUpAll (env : Env) : List ManagedService → Controller → Controller × List AutoscaleEvent
  | [], c => (c, [])
  | ms :: rest, c =>
      let (c, events) := c.topUpToDesired env ms
      let (c, more) := topUpAll env rest c
      (c, events ++ more)

/-- `reconcile_boot`.  A `list_running` that fails counts as an empty list. -/
def reconcileBoot (env : Env) (services : List ManagedService) (c : Controller) :
    Controller × List AutoscaleEvent :=
  let running := if env.store c.calls then c.runtime.listRunning else []
  let c := { c with calls := c.calls + 1 }
  let (c, adopted) := c.adoptRunning env services running
  let (c, more) := c.topUpAll env services
  (c, adopted ++ more)

/-- `reconcile_service`, on what the catalog resolves the service to. -/
def reconcileService (env : Env) (resolved : Option ManagedService) (c : Controller) :
    Controller × List AutoscaleEvent :=
  match resolved with
  | none => (c, [])
  | some ms => c.topUpToDesired env ms

/-- `drain_all`, on what the catalog resolves the service to. -/
def drainAll (env : Env) (serviceId : Uuid) (resolved : Option ManagedService) (c : Controller) :
    Controller × List AutoscaleEvent :=
  match resolved with
  | none => (c, [])
  | some ms =>
      let start := c.registry.replicaCount serviceId
      let c := (c.drainAllReplicas env ms).setDesired env serviceId 0
      (c, if 0 < start then [.scaledDown ms.serviceName start 0] else [])

end Controller

/-! ## §4. The operations. -/

/-- A controller operation, with the catalog snapshot it sees. -/
inductive Op where
  | tick (services : List ManagedService) (nowS : Nat)
  | activateOne (resolved : Option ManagedService)
  | reconcileBoot (services : List ManagedService)
  | reconcileService (resolved : Option ManagedService)
  | drainAll (serviceId : Uuid) (resolved : Option ManagedService)

/-- The state after an operation. -/
def Op.run (env : Env) (c : Controller) : Op → Controller
  | .tick services nowS => (c.tick env services nowS).1
  | .activateOne resolved => (c.activateOne env resolved).1
  | .reconcileBoot services => (c.reconcileBoot env services).1
  | .reconcileService resolved => (c.reconcileService env resolved).1
  | .drainAll serviceId resolved => (c.drainAll env serviceId resolved).1

/-- The state after a sequence of operations. -/
def runOps (env : Env) (c : Controller) (ops : List Op) : Controller := ops.foldl (Op.run env) c

/-- A controller as it starts: an empty registry and a fresh ledger, with whatever
workloads, pools and desired counts the host still has. -/
def Controller.fresh (host : HostCapacity) (headroom : Headroom) (runtime : Runtime)
    (ingress : Pools) (desired : AList fun _ : Uuid => Nat) : Controller where
  registry := ReplicaRegistry.empty
  ledger := ResourceLedger.new host headroom
  runtime := runtime
  ingress := ingress
  desired := desired
  cooldowns := ∅
  calls := 0
  drains := []

end Denia.Autoscale
