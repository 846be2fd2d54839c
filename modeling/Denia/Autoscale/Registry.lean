/-
  Denia.Autoscale.Registry — the in-memory replica registry
  (`src/autoscale/registry.rs`).

  The source keeps a vector of replicas per service; one list in order of
  insertion holds the same data, and the replicas of a service are its
  sub-list.  `Uuid::now_v7` is the counter `nextId`, so that the ids are distinct
  and never nil is a field of the type.  The round-robin cursor has no caller in
  the control plane and is left out, as is `started_at`.
-/
import Denia.Domain
import Denia.Lib.UpdateFirst

namespace Denia.Autoscale

open Lib

/-- `ReplicaState`. -/
inductive ReplicaState where
  | pending
  | healthy
  | draining
  | stopped
  deriving DecidableEq

/-- A replica.  `reserved` is a HISTORY field: the limits the ledger was charged
when the replica was launched or adopted.  The source does not record them, and no
function below reads them. -/
structure Replica where
  id : Uuid
  serviceId : Uuid
  deploymentId : Uuid
  index : Nat
  socketPath : String
  state : ReplicaState
  reserved : ResourceLimits
  deriving DecidableEq

/-- `ReplicaRegistry`. -/
structure ReplicaRegistry where
  replicas : List Replica
  nextId : Uuid
  nextId_pos : 0 < nextId
  ids_nodup : (replicas.map (·.id)).Nodup
  id_range : ∀ r ∈ replicas, 0 < r.id ∧ r.id < nextId

namespace ReplicaRegistry

/-- `ReplicaRegistry::default`. -/
def empty : ReplicaRegistry where
  replicas := []
  nextId := 1
  nextId_pos := Nat.one_pos
  ids_nodup := List.nodup_nil
  id_range := by simp

/-- The replica that `add` creates. -/
def fresh (reg : ReplicaRegistry) (serviceId deploymentId : Uuid) (index : Nat)
    (socketPath : String) (reserved : ResourceLimits) : Replica :=
  { id := reg.nextId, serviceId, deploymentId, index, socketPath, state := .pending, reserved }

/-- `add`. -/
def add (reg : ReplicaRegistry) (serviceId deploymentId : Uuid) (index : Nat)
    (socketPath : String) (reserved : ResourceLimits) : ReplicaRegistry × Uuid :=
  let r := reg.fresh serviceId deploymentId index socketPath reserved
  ({ replicas := reg.replicas ++ [r]
     nextId := reg.nextId + 1
     nextId_pos := Nat.succ_pos _
     ids_nodup := by
       have hlt : ∀ x ∈ reg.replicas, x.id ≠ reg.nextId :=
         fun x hx => Nat.ne_of_lt (reg.id_range x hx).2
       rw [List.map_append, List.nodup_append]
       refine ⟨reg.ids_nodup, by simp, ?_⟩
       rintro a ha b hb rfl
       obtain ⟨x, hx, rfl⟩ := List.mem_map.mp ha
       simp only [List.map_cons, List.map_nil, List.mem_singleton] at hb
       exact hlt x hx hb
     id_range := by
       intro x hx
       rcases List.mem_append.mp hx with hx | hx
       · exact ⟨(reg.id_range x hx).1, Nat.lt_succ_of_lt (reg.id_range x hx).2⟩
       · rw [List.mem_singleton.mp hx]
         exact ⟨reg.nextId_pos, Nat.lt_succ_self _⟩ }, r.id)

/-- `set_state`. -/
def setState (reg : ReplicaRegistry) (replicaId : Uuid) (state : ReplicaState) : ReplicaRegistry :=
  { reg with
    replicas := updateFirst (·.id == replicaId) (fun r => { r with state := state }) reg.replicas
    ids_nodup := by
      have hids : ∀ r : Replica, ({ r with state := state } : Replica).id = r.id := fun _ => rfl
      rw [map_updateFirst hids]
      exact reg.ids_nodup
    id_range := by
      intro x hx
      rcases mem_updateFirst hx with hx | ⟨y, hy, -, rfl⟩
      · exact reg.id_range x hx
      · exact reg.id_range y hy }

/-- `remove`. -/
def remove (reg : ReplicaRegistry) (replicaId : Uuid) : ReplicaRegistry :=
  { reg with
    replicas := reg.replicas.filter (·.id ≠ replicaId)
    ids_nodup := reg.ids_nodup.sublist (List.filter_sublist.map _)
    id_range := fun x hx => reg.id_range x (List.mem_of_mem_filter hx) }

/-- `replicas`: the replicas of one service, in order of insertion. -/
def replicasOf (reg : ReplicaRegistry) (serviceId : Uuid) : List Replica :=
  reg.replicas.filter (·.serviceId = serviceId)

/-- `replica_count`. -/
def replicaCount (reg : ReplicaRegistry) (serviceId : Uuid) : Nat :=
  (reg.replicasOf serviceId).length

/-- `healthy_count`. -/
def healthyCount (reg : ReplicaRegistry) (serviceId : Uuid) : Nat :=
  ((reg.replicasOf serviceId).filter (·.state = .healthy)).length

variable {reg : ReplicaRegistry} {r : Replica}

theorem mem_replicasOf {serviceId : Uuid} :
    r ∈ reg.replicasOf serviceId ↔ r ∈ reg.replicas ∧ r.serviceId = serviceId := by
  simp [replicasOf]

/-- Two replicas with one id are one replica. -/
theorem eq_of_id_eq {x : Replica} (hr : r ∈ reg.replicas) (hx : x ∈ reg.replicas)
    (h : r.id = x.id) : r = x :=
  List.inj_on_of_nodup_map reg.ids_nodup hr hx h

/-- Removing the replica just added gives back the replicas. -/
theorem remove_add (reg : ReplicaRegistry) (serviceId deploymentId : Uuid) (index : Nat)
    (socketPath : String) (reserved : ResourceLimits) :
    ((reg.add serviceId deploymentId index socketPath reserved).1.remove
      (reg.add serviceId deploymentId index socketPath reserved).2).replicas = reg.replicas := by
  have hkeep : reg.replicas.filter (·.id ≠ reg.nextId) = reg.replicas := by
    refine List.filter_eq_self.mpr fun r hr => ?_
    simpa using Nat.ne_of_lt (reg.id_range r hr).2
  show (reg.replicas ++ [_]).filter (·.id ≠ reg.nextId) = reg.replicas
  rw [List.filter_append, hkeep, List.filter_cons_of_neg (by simp [fresh]), List.filter_nil,
    List.append_nil]

/-- The replica that was added last is the one whose state is set. -/
theorem replicas_add_setState (reg : ReplicaRegistry) (serviceId deploymentId : Uuid)
    (index : Nat) (socket : String) (reserved : ResourceLimits) (state : ReplicaState) :
    ((reg.add serviceId deploymentId index socket reserved).1.setState reg.nextId state).replicas
      = reg.replicas ++
        [{ reg.fresh serviceId deploymentId index socket reserved with state := state }] := by
  refine updateFirst_concat (fun r hr => ?_) ?_
  · have hlt := (reg.id_range r hr).2
    exact beq_eq_false_iff_ne.mpr (Nat.ne_of_lt hlt)
  · exact beq_self_eq_true _

/-- What a removal drops does not depend on its state. -/
theorem replicas_setState_remove (reg : ReplicaRegistry) (replicaId : Uuid) (state : ReplicaState) :
    ((reg.setState replicaId state).remove replicaId).replicas
      = (reg.remove replicaId).replicas := by
  refine filter_updateFirst fun r hr => ?_
  have hid : r.id = replicaId := by simpa using List.find?_some hr
  simp [hid]

/-- The replicas of a service after one more was registered. -/
theorem replicasOf_add_setState (reg : ReplicaRegistry) (serviceId deploymentId : Uuid)
    (index : Nat) (socket : String) (reserved : ResourceLimits) (state : ReplicaState)
    (service : Uuid) : ((reg.add serviceId deploymentId index socket reserved).1.setState reg.nextId
        state).replicasOf service
      = reg.replicasOf service ++
        if serviceId = service then
          [{ reg.fresh serviceId deploymentId index socket reserved with state := state }]
        else [] := by
  show List.filter _ (ReplicaRegistry.replicas _) = _
  rw [replicas_add_setState, List.filter_append]
  by_cases h : serviceId = service <;> simp [fresh, h, replicasOf]

theorem replicasOf_setState_remove (reg : ReplicaRegistry) (replicaId : Uuid)
    (state : ReplicaState) (service : Uuid) :
    ((reg.setState replicaId state).remove replicaId).replicasOf service
      = (reg.replicasOf service).filter (·.id ≠ replicaId) := by
  show List.filter _ (ReplicaRegistry.replicas _) = _
  rw [replicas_setState_remove]
  exact List.filter_comm _ _ _

/-- The replicas of another service are not among what is removed. -/
theorem filter_replicasOf_of_ne (hr : r ∈ reg.replicas) {service : Uuid}
    (hne : r.serviceId ≠ service) :
    (reg.replicasOf service).filter (·.id ≠ r.id) = reg.replicasOf service := by
  refine List.filter_eq_self.mpr fun x hx => ?_
  obtain ⟨hx, hservice⟩ := mem_replicasOf.mp hx
  have hid : x.id ≠ r.id := fun h => hne (eq_of_id_eq hx hr h ▸ hservice)
  simpa using hid

/-- A measure of replicas with different ids is the sum over the others and one of them. -/
theorem sum_filter_id_ne {l : List Replica} (hnodup : (l.map (·.id)).Nodup) (hr : r ∈ l)
    (g : Replica → Nat) : ((l.filter (·.id ≠ r.id)).map g).sum + g r = (l.map g).sum := by
  induction l with
  | nil => cases hr
  | cons x xs ih =>
    rw [List.map_cons, List.nodup_cons] at hnodup
    rcases List.mem_cons.mp hr with rfl | hr
    · have hkeep : xs.filter (·.id ≠ r.id) = xs := by
        refine List.filter_eq_self.mpr fun y hy => ?_
        have hne : y.id ≠ r.id := fun h => hnodup.1 (List.mem_map.mpr ⟨y, hy, h⟩)
        simpa using hne
      rw [List.filter_cons_of_neg (by simp), hkeep, List.map_cons, List.sum_cons]
      omega
    · have hne : x.id ≠ r.id := fun h => hnodup.1 (List.mem_map.mpr ⟨r, hr, h.symm⟩)
      have hrest := ih hnodup.2 hr
      rw [List.filter_cons_of_pos (by simpa using hne), List.map_cons, List.map_cons,
        List.sum_cons, List.sum_cons]
      omega

/-- Any measure of the replicas that ignores the state is the sum over the others
and the removed one. -/
theorem sum_remove (hr : r ∈ reg.replicas) (g : Replica → Nat) :
    ((reg.remove r.id).replicas.map g).sum + g r = (reg.replicas.map g).sum :=
  sum_filter_id_ne reg.ids_nodup hr g

end ReplicaRegistry

end Denia.Autoscale
