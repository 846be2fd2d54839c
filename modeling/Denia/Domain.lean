/-
  Denia.Domain — the records the control plane passes around
  (`src/domain/service.rs`, `src/domain/deployment.rs`, `src/domain/project.rs`).

  Ids are UUIDs: `Uuid::now_v7()` is modelled by a counter that never repeats and
  never returns `Uuid::nil()`.  Machine integers are `Nat` with their bound where
  the code saturates or truncates.  Fields that no modelled function reads are
  left out.
-/
import Mathlib.Algebra.Ring.Nat
import Mathlib.Data.List.AList

namespace Denia

/-- A UUID, by its number. -/
abbrev Uuid := Nat

/-- `Uuid::nil()`. -/
def Uuid.nil : Uuid := 0

/-- `u32::MAX`. -/
def u32Max : Nat := 2 ^ 32 - 1

/-- `u64::MAX`. -/
def u64Max : Nat := 2 ^ 64 - 1

/-- What a replica may use. -/
structure ResourceLimits where
  cpuMillis : Nat
  memoryBytes : Nat
  deriving DecidableEq

/-- `ResourceLimits::default()`. -/
def ResourceLimits.default : ResourceLimits :=
  { cpuMillis := 500, memoryBytes := 512 * 1024 * 1024 }

/-- `AutoscalePolicy`, as a request brings it. -/
structure PolicyInput where
  minReplicas : Nat
  maxReplicas : Nat
  targetCpuPct : Nat
  targetMemPct : Option Nat
  scaleDownCooldownS : Nat
  idleTimeoutS : Nat
  deriving DecidableEq

/-- A policy as `put_service` stores it: `AutoscalePolicy::validate` has passed, so
the replica bounds and the target percents are in range. -/
structure AutoscalePolicy extends PolicyInput where
  replica_bounds : 1 ≤ maxReplicas ∧ minReplicas ≤ maxReplicas
  target_percent : (1 ≤ targetCpuPct ∧ targetCpuPct ≤ 100) ∧
    ∀ p ∈ targetMemPct, 1 ≤ p ∧ p ≤ 100
  cooldown_le : scaleDownCooldownS ≤ idleTimeoutS
  deriving DecidableEq

/-- `AutoscalePolicy::validate`. -/
def PolicyInput.validate (p : PolicyInput) : Except String AutoscalePolicy :=
  if hbounds : 1 ≤ p.maxReplicas ∧ p.minReplicas ≤ p.maxReplicas then
    if htarget : (1 ≤ p.targetCpuPct ∧ p.targetCpuPct ≤ 100) ∧
        ∀ m ∈ p.targetMemPct, 1 ≤ m ∧ m ≤ 100 then
      if hcooldown : p.scaleDownCooldownS ≤ p.idleTimeoutS then
        .ok ⟨p, hbounds, htarget, hcooldown⟩
      else .error "invalid autoscale policy: idle_timeout < cooldown"
    else .error "invalid autoscale policy: target percent"
  else .error "invalid autoscale policy: replica bounds"

/-- How a service is probed. -/
structure HealthCheck where
  path : String
  timeoutSeconds : Nat
  deriving DecidableEq

/-- `RuntimeStartRequest`, past the fields that are always `None`. -/
structure RuntimeStartRequest where
  serviceName : String
  serviceId : Uuid
  deploymentId : Uuid
  artifact : String
  internalPort : Nat
  cpuMillis : Nat
  memoryBytes : Nat
  env : List (String × String)
  replicaIndex : Nat

/-- Identity of a running replica.  `service_name` takes no part in equality or
hashing in the source, so the pair is the whole identity. -/
structure RuntimeInstanceId where
  serviceId : Uuid
  replicaIndex : Nat
  deriving DecidableEq

/-- `RuntimeStartRequest::instance_id`. -/
def RuntimeStartRequest.instanceId (r : RuntimeStartRequest) : RuntimeInstanceId :=
  { serviceId := r.serviceId, replicaIndex := r.replicaIndex }

/-- `RuntimeStatus`, past the pid and the cgroup path. -/
structure RuntimeStatus where
  serviceId : Uuid
  serviceName : String
  deploymentId : Uuid
  socketPath : String
  replicaIndex : Nat

end Denia
