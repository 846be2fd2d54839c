/-
  Denia.Runtime.Tracked — the runtime's table of tracked children
  (`LinuxRuntime::start`, `stop` and `list_running` in `src/runtime/linux.rs`).

  What the control plane depends on is the table `children`, keyed by
  `(service_id, replica_index)`: a `start` that succeeds inserts its child and so
  REPLACES one with the same key; a `start` that fails leaves the table alone; a
  `stop` removes the key.  Whether a call succeeds, and the socket a start
  reports, is the host's business and comes in from outside.
-/
import Denia.Domain

namespace Denia

/-- One tracked child: what it runs, and the socket it serves on. -/
structure TrackedChild where
  serviceName : String
  deploymentId : Uuid
  socketPath : String
  deriving DecidableEq

/-- What the host answers to a `stop`.  The child leaves the table before it is
terminated, so an error can be returned with or without the child tracked. -/
inductive StopResult where
  | stopped
  | failedTracked
  | failedRemoved
  deriving DecidableEq

/-- The children, by instance. -/
structure Runtime where
  children : AList fun _ : RuntimeInstanceId => TrackedChild

namespace Runtime

/-- `start`, once the host has spawned the child and its socket is bound. -/
def started (rt : Runtime) (r : RuntimeStartRequest) (socketPath : String) : Runtime :=
  { children := rt.children.insert r.instanceId ⟨r.serviceName, r.deploymentId, socketPath⟩ }

/-- `stop`. -/
def stop (rt : Runtime) (instanceId : RuntimeInstanceId) : StopResult → Runtime
  | .failedTracked => rt
  | .stopped | .failedRemoved => { children := rt.children.erase instanceId }

/-- `list_running`. -/
def listRunning (rt : Runtime) : List RuntimeStatus :=
  rt.children.entries.map fun e =>
    { serviceId := e.1.serviceId
      serviceName := e.2.serviceName
      deploymentId := e.2.deploymentId
      socketPath := e.2.socketPath
      replicaIndex := e.1.replicaIndex }

/-- After a start the new child is under its key; the others are as they were. -/
theorem lookup_started (rt : Runtime) (r : RuntimeStartRequest) (socketPath : String)
    (key : RuntimeInstanceId) : (rt.started r socketPath).children.lookup key
      = if key = r.instanceId then some ⟨r.serviceName, r.deploymentId, socketPath⟩
        else rt.children.lookup key := by
  unfold started
  by_cases h : key = r.instanceId
  · rw [if_pos h, h, AList.lookup_insert]
  · rw [if_neg h, AList.lookup_insert_ne h]

variable {instanceId key : RuntimeInstanceId}

/-- A stop brings no child back; unless it fails with the child tracked, its key is
free. -/
theorem lookup_stop {rt : Runtime} {result : StopResult} {child : TrackedChild}
    (h : (rt.stop instanceId result).children.lookup key = some child) :
    rt.children.lookup key = some child ∧ (result ≠ .failedTracked → key ≠ instanceId) := by
  have herase : (rt.children.erase instanceId).lookup key = some child →
      rt.children.lookup key = some child ∧ key ≠ instanceId := by
    intro h
    by_cases hkey : key = instanceId
    · subst hkey
      simp [AList.lookup_erase] at h
    · rw [AList.lookup_erase_ne hkey] at h
      exact ⟨h, hkey⟩
  cases result with
  | failedTracked => exact ⟨h, fun hne => absurd rfl hne⟩
  | stopped | failedRemoved => exact ⟨(herase h).1, fun _ => (herase h).2⟩

/-- A stop leaves the children under other keys as they were. -/
theorem lookup_stop_of_ne {rt : Runtime} {result : StopResult} (hne : key ≠ instanceId) :
    (rt.stop instanceId result).children.lookup key = rt.children.lookup key := by
  cases result with
  | failedTracked => rfl
  | stopped | failedRemoved => exact AList.lookup_erase_ne hne

end Runtime

end Denia
