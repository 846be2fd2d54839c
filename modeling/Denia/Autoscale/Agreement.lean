/-
  Denia.Autoscale.Agreement — the registry and the ingress pools tell the same story.

  `launch_replica`, `drain_replica` and the adoption of a boot reconcile update the two
  stores one after the other.  Between two operations the endpoints of a service's pool
  ARE its registered replicas, in the same order, each of them Healthy here and healthy
  there; whatever the runtime and the health checks answered on the way.

  Main results: `step_agrees`, one primitive step, and `pools_agree`, every run.
-/
import Denia.Autoscale.Conservation

namespace Denia.Autoscale

open Lib

/-- The endpoint of a replica that takes traffic. -/
def Replica.endpoint (r : Replica) : ReplicaEndpoint := ⟨r.id, r.socketPath, true⟩

/-- The pools and the registry agree. -/
structure Agrees (c : Controller) : Prop where
  healthy : AllHealthy c
  endpoints : ∀ serviceId,
    c.ingress.endpoints serviceId = (c.registry.replicasOf serviceId).map Replica.endpoint

variable {c c' : Controller} {socket : String}

/-! ## §1. One step. -/

section
/-- A change of neither store. -/
theorem Agrees.congr (h : Agrees c) (hreg : c'.registry.replicas = c.registry.replicas)
    (hpool : ∀ serviceId, c'.ingress.endpoints serviceId = c.ingress.endpoints serviceId) :
    Agrees c' := by
  refine ⟨fun r hr => h.healthy r (hreg ▸ hr), fun serviceId => ?_⟩
  rw [hpool, h.endpoints, ReplicaRegistry.replicasOf, ReplicaRegistry.replicasOf, hreg]

/-- No endpoint has the id that the next replica gets. -/
theorem Agrees.fresh (h : Agrees c) (serviceId : Uuid) :
    ∀ e ∈ c.ingress.endpoints serviceId, e.replicaId ≠ c.registry.nextId := by
  intro e he
  rw [h.endpoints] at he
  obtain ⟨r, hr, rfl⟩ := List.mem_map.mp he
  exact Nat.ne_of_lt (c.registry.id_range r (ReplicaRegistry.mem_replicasOf.mp hr).1).2

theorem Agrees.endpoints_added (h : Agrees c) (now : Nat) (serviceId : Uuid) (socket : String)
    (service : Uuid) :
    (c.ingress.addReplica now serviceId c.registry.nextId socket).endpoints service
      = if service = serviceId then
          c.ingress.endpoints serviceId ++ [⟨c.registry.nextId, socket, false⟩]
        else c.ingress.endpoints service :=
  Pools.endpoints_addReplica (h.fresh serviceId) service

variable {now index : Nat} {serviceId deploymentId : Uuid} {reserved : ResourceLimits}

/-- **A replica comes up**: registered, added to its pool, and marked in both. -/
theorem Agrees.up (h : Agrees c)
    (hreg : c'.registry = (c.registry.add serviceId deploymentId index socket
      reserved).1.setState c.registry.nextId .healthy)
    (hpool : c'.ingress = (c.ingress.addReplica now serviceId c.registry.nextId
      socket).setReplicaHealthy serviceId c.registry.nextId true) : Agrees c' := by
  refine ⟨h.healthy.add hreg, fun service => ?_⟩
  have hadd := h.endpoints_added now serviceId socket
  rw [hpool, Pools.endpoints_setReplicaHealthy, hadd, hadd, if_pos rfl, hreg,
    ReplicaRegistry.replicasOf_add_setState, List.map_append, ← h.endpoints]
  by_cases hs : service = serviceId
  · have hlast : updateFirst (·.replicaId == c.registry.nextId)
        (fun e => { e with healthy := true })
        (c.ingress.endpoints serviceId ++ [⟨c.registry.nextId, socket, false⟩])
        = c.ingress.endpoints serviceId ++ [⟨c.registry.nextId, socket, true⟩] := by
      refine updateFirst_concat (fun e he => ?_) (beq_self_eq_true _)
      exact beq_eq_false_iff_ne.mpr (h.fresh serviceId e he)
    rw [if_pos hs, hlast, if_pos hs.symm, hs]
    rfl
  · rw [if_neg hs, if_neg hs, if_neg fun heq => hs heq.symm, List.map_nil, List.append_nil]

/-- **A replica that did not pass** leaves both stores as they were. -/
theorem Agrees.rolledBack (h : Agrees c)
    (hreg : c'.registry = (c.registry.add serviceId deploymentId index socket
      reserved).1.remove c.registry.nextId)
    (hpool : c'.ingress = (c.ingress.addReplica now serviceId c.registry.nextId
      socket).removeReplica serviceId c.registry.nextId) : Agrees c' := by
  refine h.congr ?_ fun service => ?_
  · rw [hreg]
    exact c.registry.remove_add serviceId deploymentId index socket reserved
  · have hadd := h.endpoints_added now serviceId socket
    rw [hpool, Pools.endpoints_removeReplica, hadd, hadd, if_pos rfl]
    split
    next hs =>
      have hkeep : (c.ingress.endpoints serviceId).filter
          (fun e => decide (e.replicaId ≠ c.registry.nextId)) = c.ingress.endpoints serviceId :=
        List.filter_eq_self.mpr fun e he => by simpa using h.fresh serviceId e he
      rw [List.filter_append, hkeep, hs]
      simp
    next => rfl

/-- **A replica goes down**: marked, and removed from both. -/
theorem Agrees.down (h : Agrees c) {r : Replica} (hr : r ∈ c.registry.replicasOf serviceId)
    (hreg : c'.registry = (c.registry.setState r.id .draining).remove r.id)
    (hpool : c'.ingress = (c.ingress.setReplicaHealthy serviceId r.id false).removeReplica
      serviceId r.id) : Agrees c' := by
  obtain ⟨hmem, hservice⟩ := ReplicaRegistry.mem_replicasOf.mp hr
  refine ⟨fun x hx => ?_, fun service => ?_⟩
  · rw [hreg, ReplicaRegistry.replicas_setState_remove] at hx
    exact h.healthy x (List.mem_of_mem_filter hx)
  · rw [hpool, Pools.endpoints_removeReplica, Pools.endpoints_setReplicaHealthy,
      Pools.endpoints_setReplicaHealthy, if_pos rfl, hreg,
      ReplicaRegistry.replicasOf_setState_remove]
    by_cases hs : service = serviceId
    · have hdrop : (updateFirst (·.replicaId == r.id) (fun e => { e with healthy := false })
          (c.ingress.endpoints serviceId)).filter (·.replicaId ≠ r.id)
          = (c.ingress.endpoints serviceId).filter (·.replicaId ≠ r.id) := by
        refine filter_updateFirst fun e he => ?_
        have hid : e.replicaId = r.id := by simpa using List.find?_some he
        simp [hid]
      rw [if_pos hs, hdrop, h.endpoints, hs, List.filter_map]
      rfl
    · have hother : r.serviceId ≠ service := fun heq => hs (heq.symm.trans hservice)
      rw [if_neg hs, if_neg hs, h.endpoints, ReplicaRegistry.filter_replicasOf_of_ne hmem hother]

end

variable {env : Env}

/-- **A primitive step keeps the agreement.** -/
theorem step_agrees {P : ManagedService → Prop} (hstep : Step env P c c') (h : Agrees c) :
    Agrees c' := by
  cases hstep with
  | @launch ms index hms hindex =>
    have hlaunched := launchReplica_launched env (launchSpec ms index) c
    generalize c.launchReplica env (launchSpec ms index) = result at hlaunched ⊢
    cases hlaunched with
    | denied => exact h
    | notStarted => exact h.congr rfl fun _ => rfl
    | unhealthy => exact h.rolledBack rfl rfl
    | healthy => exact h.up rfl rfl
  | drain hms hr => exact h.down hr rfl rfl
  | adopt => exact h.up rfl rfl
  | stop => exact h.congr rfl fun _ => rfl
  | note => exact h.congr rfl fun _ => rfl

/-! ## §2. Runs. -/

/-- Between two operations the proxy may ask for a socket. -/
inductive PoolMove where
  | operate (op : Op)
  | request (service : Uuid) (now : Nat)

/-- What the event leaves. -/
def PoolMove.run (env : Env) (c : Controller) : PoolMove → Controller
  | .operate op => op.run env c
  | .request service now =>
      match c.ingress.nextSocket now service with
      | none => c
      | some (pools, _) => { c with ingress := pools }

theorem move_agrees (h : Agrees c) (move : PoolMove) : Agrees (move.run env c) := by
  cases move with
  | operate op =>
    have hsteps : Steps env (fun _ => True) c (op.run env c) := op.run_steps (fun _ _ => trivial) c
    show Agrees (op.run env c)
    generalize op.run env c = c' at hsteps
    induction hsteps with
    | refl => exact h
    | tail _ hlast ih => exact step_agrees hlast ih
  | request service now =>
    show Agrees (match c.ingress.nextSocket now service with
      | none => c
      | some (pools, _) => { c with ingress := pools })
    split
    next => exact h
    next pools socket hnext => exact h.congr rfl (Pools.endpoints_nextSocket hnext)

/-- **The pools and the registry agree** after every sequence of operations, with requests
in between: for every service the endpoints are its registered replicas, each once, all
Healthy and healthy, and a socket that is returned is one of theirs. -/
theorem pools_agree (env : Env) (host : HostCapacity) (headroom : Headroom) (runtime : Runtime)
    (ingress : Pools) (desired : AList fun _ : Uuid => Nat) (moves : List PoolMove)
    (hidle : ∀ serviceId, ingress.endpoints serviceId = []) (serviceId : Uuid) :
    let c := moves.foldl (PoolMove.run env)
      (Controller.fresh host headroom runtime ingress desired)
    c.ingress.endpoints serviceId
        = (c.registry.replicasOf serviceId).map (fun r => ⟨r.id, r.socketPath, true⟩) ∧
      ((c.ingress.endpoints serviceId).map (·.replicaId)).Nodup ∧
      (∀ r ∈ c.registry.replicasOf serviceId, r.state = .healthy) ∧
      ∀ now pools socket, c.ingress.nextSocket now serviceId = some (pools, socket) →
        ∃ r ∈ c.registry.replicasOf serviceId, r.state = .healthy ∧ r.socketPath = socket := by
  have hagrees : Agrees (moves.foldl (PoolMove.run env)
      (Controller.fresh host headroom runtime ingress desired)) := by
    refine List.foldlRecOn moves (PoolMove.run env) ⟨fun r hr => ?_, hidle⟩
      fun c hc move _ => move_agrees hc move
    cases hr
  intro c
  refine ⟨hagrees.endpoints serviceId, ?_, ?_, ?_⟩
  · rw [hagrees.endpoints, List.map_map]
    exact c.registry.ids_nodup.sublist (List.filter_sublist.map _)
  · exact fun r hr => hagrees.healthy r (ReplicaRegistry.mem_replicasOf.mp hr).1
  · intro now pools socket hnext
    obtain ⟨e, he, -, hsocket⟩ := Pools.nextSocket_healthy hnext
    rw [hagrees.endpoints] at he
    obtain ⟨r, hr, rfl⟩ := List.mem_map.mp he
    exact ⟨r, hr, hagrees.healthy r (ReplicaRegistry.mem_replicasOf.mp hr).1, hsocket⟩

/-- A tick brings `web` up, a request asks for it, and the pool has the one replica. -/
theorem pools_agree_web :
    let c := [.operate (.tick [web ⟨500, 1024⟩] 0), .request 7 5].foldl (PoolMove.run calmEnv)
      quietHost
    c.ingress.endpoints 7 = [⟨1, "/run/denia/web-0.sock", true⟩] ∧
    c.ingress.endpoints 7
        = (c.registry.replicasOf 7).map (fun r => ⟨r.id, r.socketPath, true⟩) ∧
      ((c.ingress.endpoints 7).map (·.replicaId)).Nodup ∧
      (∀ r ∈ c.registry.replicasOf 7, r.state = .healthy) ∧
      ∀ now pools socket, c.ingress.nextSocket now 7 = some (pools, socket) →
        ∃ r ∈ c.registry.replicasOf 7, r.state = .healthy ∧ r.socketPath = socket :=
  ⟨by decide +kernel, pools_agree calmEnv ⟨4000, 4294967296⟩ ⟨0, 0⟩ ⟨∅⟩ ⟨∅⟩ ∅ _
    (fun _ => rfl) 7⟩

end Denia.Autoscale
