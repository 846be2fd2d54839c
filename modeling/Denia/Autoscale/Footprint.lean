/-
  Denia.Autoscale.Footprint — what of a service is UP: the children the runtime
  tracks, the endpoints of its pool, the replicas the controller has registered.

  The controller OWNS a service when each child and each endpoint of it belongs to a
  registered replica.  A step for some services adds nothing to any other; and it keeps the
  ownership, unless a `runtime.stop` fails and leaves the child tracked.

  Main results: `Op.run_footprint`, both, for every operation; `drainAllReplicas_drained`.
-/
import Denia.Autoscale.Steps

namespace Denia.Autoscale

/-! ## §1. The footprint of a service. -/

/-- The runtime tracks an instance of the service at this index. -/
def Controller.ChildAt (c : Controller) (serviceId : Uuid) (index : Nat) : Prop :=
  ∃ child, c.runtime.children.lookup ⟨serviceId, index⟩ = some child

/-- The service's pool has an endpoint of this replica. -/
def Controller.EndpointAt (c : Controller) (serviceId replicaId : Uuid) : Prop :=
  ∃ e ∈ c.ingress.endpoints serviceId, e.replicaId = replicaId

/-- A replica of the service is registered, in whatever state. -/
def ReplicaRegistry.At (reg : ReplicaRegistry) (serviceId replicaId : Uuid) (index : Nat) : Prop :=
  ∃ r ∈ reg.replicas, r.serviceId = serviceId ∧ r.id = replicaId ∧ r.index = index

/-- Nothing of the service is up. -/
structure Down (c : Controller) (serviceId : Uuid) : Prop where
  noChild : ∀ index, ¬ c.ChildAt serviceId index
  noEndpoint : ∀ replicaId, ¬ c.EndpointAt serviceId replicaId
  noReplica : ∀ replicaId index, ¬ c.registry.At serviceId replicaId index

/-- Everything of the service that is up belongs to a registered replica. -/
structure Owned (c : Controller) (serviceId : Uuid) : Prop where
  child : ∀ index, c.ChildAt serviceId index → ∃ replicaId, c.registry.At serviceId replicaId index
  endpoint : ∀ replicaId, c.EndpointAt serviceId replicaId →
    ∃ index, c.registry.At serviceId replicaId index

/-- Nothing of the service has come up. -/
structure Shrinks (c c' : Controller) (serviceId : Uuid) : Prop where
  child : ∀ index, c'.ChildAt serviceId index → c.ChildAt serviceId index
  endpoint : ∀ replicaId, c'.EndpointAt serviceId replicaId → c.EndpointAt serviceId replicaId
  replica : ∀ replicaId index, c'.registry.At serviceId replicaId index →
    c.registry.At serviceId replicaId index

theorem Shrinks.refl (c : Controller) (serviceId : Uuid) : Shrinks c c serviceId :=
  ⟨fun _ h => h, fun _ h => h, fun _ _ h => h⟩

variable {c c' : Controller} {serviceId : Uuid}

theorem Shrinks.trans {a b : Controller} (h : Shrinks a b serviceId) (h' : Shrinks b c serviceId) :
    Shrinks a c serviceId :=
  ⟨fun i hi => h.child i (h'.child i hi), fun r hr => h.endpoint r (h'.endpoint r hr),
    fun r i hr => h.replica r i (h'.replica r i hr)⟩

theorem Down.of_shrinks (hdown : Down c serviceId) (h : Shrinks c c' serviceId) :
    Down c' serviceId :=
  ⟨fun i hi => hdown.noChild i (h.child i hi), fun r hr => hdown.noEndpoint r (h.endpoint r hr),
    fun r i hr => hdown.noReplica r i (h.replica r i hr)⟩

theorem Down.owned (h : Down c serviceId) : Owned c serviceId :=
  ⟨fun i hi => absurd hi (h.noChild i), fun r hr => absurd hr (h.noEndpoint r)⟩

/-- An owned service without a replica is down. -/
theorem Owned.down (h : Owned c serviceId)
    (hnone : ∀ replicaId index, ¬ c.registry.At serviceId replicaId index) : Down c serviceId := by
  refine ⟨fun i hi => ?_, fun r hr => ?_, hnone⟩
  · obtain ⟨r, hr⟩ := h.child i hi
    exact hnone r i hr
  · obtain ⟨i, hi⟩ := h.endpoint r hr
    exact hnone r i hi

/-- Ownership survives a change that brings nothing up and keeps the replicas. -/
theorem Owned.of_shrinks (h : Owned c serviceId) (hshrinks : Shrinks c c' serviceId)
    (hkept : ∀ replicaId index, c.registry.At serviceId replicaId index →
      c'.registry.At serviceId replicaId index) : Owned c' serviceId := by
  refine ⟨fun i hi => ?_, fun r hr => ?_⟩
  · obtain ⟨r, hr⟩ := h.child i (hshrinks.child i hi)
    exact ⟨r, hkept r i hr⟩
  · obtain ⟨i, hi⟩ := h.endpoint r (hshrinks.endpoint r hr)
    exact ⟨i, hkept r i hi⟩

/-! ## §2. The registered replicas after a change. -/

namespace ReplicaRegistry

variable {replicaId : Uuid} {index : Nat}

theorem at_add (reg : ReplicaRegistry) (service deployment : Uuid) (i : Nat) (socket : String)
    (reserved : ResourceLimits) :
    (reg.add service deployment i socket reserved).1.At serviceId replicaId index ↔
      reg.At serviceId replicaId index ∨
        (serviceId = service ∧ replicaId = reg.nextId ∧ index = i) := by
  constructor
  · rintro ⟨r, hr, hs, hid, hi⟩
    rcases List.mem_append.mp hr with hr | hr
    · exact .inl ⟨r, hr, hs, hid, hi⟩
    · rw [List.mem_singleton.mp hr] at hs hid hi
      exact .inr ⟨hs.symm, hid.symm, hi.symm⟩
  · rintro (⟨r, hr, h⟩ | ⟨rfl, rfl, rfl⟩)
    · exact ⟨r, List.mem_append_left _ hr, h⟩
    · exact ⟨_, List.mem_append_right _ (List.mem_singleton.mpr rfl), rfl, rfl, rfl⟩

theorem at_remove (reg : ReplicaRegistry) (removed : Uuid) :
    (reg.remove removed).At serviceId replicaId index ↔
      reg.At serviceId replicaId index ∧ replicaId ≠ removed := by
  constructor
  · rintro ⟨r, hr, hs, hid, hi⟩
    obtain ⟨hr, hne⟩ := List.mem_filter.mp hr
    have hne : r.id ≠ removed := by simpa using hne
    exact ⟨⟨r, hr, hs, hid, hi⟩, hid ▸ hne⟩
  · rintro ⟨⟨r, hr, hs, hid, hi⟩, hne⟩
    have hne : r.id ≠ removed := hid ▸ hne
    exact ⟨r, List.mem_filter.mpr ⟨hr, by simpa using hne⟩, hs, hid, hi⟩

/-- The state of a replica is no part of its place. -/
theorem at_setState (reg : ReplicaRegistry) (id : Uuid) (state : ReplicaState) :
    (reg.setState id state).At serviceId replicaId index ↔ reg.At serviceId replicaId index := by
  constructor
  · rintro ⟨r, hr, hs, hid, hi⟩
    rcases Lib.mem_updateFirst hr with hr | ⟨x, hx, -, rfl⟩
    · exact ⟨r, hr, hs, hid, hi⟩
    · exact ⟨x, hx, hs, hid, hi⟩
  · rintro ⟨r, hr, hs, hid, hi⟩
    by_cases hne : r.id = id
    · subst hne
      exact ⟨_, mem_setState_self hr, hs, hid, hi⟩
    · exact ⟨r, mem_setState_of_ne hr hne, hs, hid, hi⟩

variable {r : Replica}

/-- A replica has one place. -/
theorem At.index_eq {reg : ReplicaRegistry} (hr : r ∈ reg.replicas)
    (h : reg.At serviceId r.id index) : index = r.index := by
  obtain ⟨x, hx, -, hid, hi⟩ := h
  rw [← hi, eq_of_id_eq hx hr hid]

end ReplicaRegistry

open ReplicaRegistry

/-! ## §3. One step. -/

/-- No `runtime.stop` of the controller fails and leaves the child tracked. -/
def StopsUntrack (env : Env) : Prop := ∀ call instanceId, env.stop call instanceId ≠ .failedTracked

section
variable {env : Env} {P : ManagedService → Prop}

/-- A `runtime.stop` brings nothing up. -/
theorem shrinks_stop (c : Controller) (instanceId : RuntimeInstanceId) (result : StopResult)
    (serviceId : Uuid) :
    Shrinks c { c with runtime := c.runtime.stop instanceId result } serviceId :=
  ⟨fun _ ⟨child, h⟩ => ⟨child, (Runtime.lookup_stop h).1⟩, fun _ h => h, fun _ _ h => h⟩

/-- A change that brings nothing up and keeps the replicas meets both conditions. -/
theorem footprint_of_shrinks {Q : Prop} (hshrinks : Shrinks c c' serviceId)
    (hkept : ∀ replicaId index, c.registry.At serviceId replicaId index →
      c'.registry.At serviceId replicaId index) :
    (Q → Shrinks c c' serviceId) ∧ (Owned c serviceId → Owned c' serviceId) :=
  ⟨fun _ => hshrinks, fun h => h.of_shrinks hshrinks hkept⟩

/-- One replica has been added, with at most its own child and endpoint. -/
structure Adds (service : Uuid) (index : Nat) (c c' : Controller) (serviceId : Uuid) : Prop where
  child : ∀ i, c'.ChildAt serviceId i → c.ChildAt serviceId i ∨ (serviceId = service ∧ i = index)
  endpoint : ∀ r, c'.EndpointAt serviceId r →
    c.EndpointAt serviceId r ∨ (serviceId = service ∧ r = c.registry.nextId)
  replica : ∀ r i, c'.registry.At serviceId r i ↔
    c.registry.At serviceId r i ∨ (serviceId = service ∧ r = c.registry.nextId ∧ i = index)

theorem Adds.footprint {service : Uuid} (index : Nat) (h : Adds service index c c' serviceId) :
    (serviceId ≠ service → Shrinks c c' serviceId) ∧ (Owned c serviceId → Owned c' serviceId) := by
  refine ⟨fun hne => ⟨fun i hi => ?_, fun r hr => ?_, fun r i hr => ?_⟩,
    fun howned => ⟨fun i hi => ?_, fun r hr => ?_⟩⟩
  · exact (h.child i hi).resolve_right fun hnew => hne hnew.1
  · exact (h.endpoint r hr).resolve_right fun hnew => hne hnew.1
  · exact ((h.replica r i).mp hr).resolve_right fun hnew => hne hnew.1
  · rcases h.child i hi with hold | hnew
    · obtain ⟨r, hr⟩ := howned.child i hold
      exact ⟨r, (h.replica r i).mpr (.inl hr)⟩
    · exact ⟨_, (h.replica _ i).mpr (.inr ⟨hnew.1, rfl, hnew.2⟩)⟩
  · rcases h.endpoint r hr with hold | hnew
    · obtain ⟨i, hi⟩ := howned.endpoint r hold
      exact ⟨i, (h.replica r i).mpr (.inl hi)⟩
    · exact ⟨_, (h.replica r _).mpr (.inr ⟨hnew.1, hnew.2, rfl⟩)⟩

/-- A new endpoint that is set healthy is the only one a pool gains. -/
theorem endpoint_added {pools : Pools} {now : Nat} {service replicaId : Uuid} {socket : String}
    {e : ReplicaEndpoint} (he : e ∈ ((pools.addReplica now service replicaId
      socket).setReplicaHealthy service replicaId true).endpoints serviceId) :
    (∃ e' ∈ pools.endpoints serviceId, e'.replicaId = e.replicaId) ∨
      (serviceId = service ∧ e.replicaId = replicaId) := by
  obtain ⟨e', he', hid⟩ := Pools.mem_endpoints_setReplicaHealthy he
  rcases Pools.mem_endpoints_addReplica he' with ⟨hs, hnew⟩ | he'
  · exact .inr ⟨hs, hid ▸ hnew⟩
  · exact .inl ⟨e', he', hid⟩

/-- What a launch does to the footprints: to one that fails, nothing is left of it;
one that succeeds adds the new replica with its child and its endpoint. -/
theorem launch_footprint (henv : StopsUntrack env) (spec : LaunchSpec) (c : Controller)
    (serviceId : Uuid) :
    (serviceId ≠ spec.serviceId → Shrinks c (c.launchReplica env spec).1 serviceId) ∧
      (Owned c serviceId → Owned (c.launchReplica env spec).1 serviceId) := by
  have hlaunched := launchReplica_launched env spec c
  generalize c.launchReplica env spec = result at hlaunched ⊢
  cases hlaunched with
  | denied => exact ⟨fun _ => Shrinks.refl c serviceId, fun h => h⟩
  | notStarted =>
    exact footprint_of_shrinks ⟨fun _ h => h, fun _ h => h, fun _ _ h => h⟩ fun _ _ h => h
  | unhealthy =>
    -- the rollback takes the child, the endpoint and the replica away again
    refine footprint_of_shrinks ⟨?_, ?_, ?_⟩ ?_
    · rintro i ⟨child, h⟩
      obtain ⟨h, hne⟩ := Runtime.lookup_stop h
      have hne : (⟨serviceId, i⟩ : RuntimeInstanceId) ≠ spec.request.instanceId := hne (henv _ _)
      rw [Runtime.lookup_started, if_neg hne] at h
      exact ⟨child, h⟩
    · rintro r ⟨e, he, rfl⟩
      obtain ⟨he, hne⟩ := Pools.mem_endpoints_removeReplica he
      rcases Pools.mem_endpoints_addReplica he with ⟨hs, hid⟩ | he
      · exact absurd hid (hne hs)
      · exact ⟨e, he, rfl⟩
    · intro r i h
      obtain ⟨h, hne⟩ := (at_remove _ _).mp h
      rcases (at_add _ _ _ _ _ _).mp h with h | ⟨-, hid, -⟩
      · exact h
      · exact absurd hid hne
    · intro r i hr
      refine (at_remove _ _).mpr
        ⟨(at_add _ _ _ _ _ _).mpr (.inl hr), ?_⟩
      obtain ⟨x, hx, -, rfl, -⟩ := hr
      exact Nat.ne_of_lt (c.registry.id_range x hx).2
  | healthy =>
    refine Adds.footprint spec.replicaIndex ⟨?_, ?_, fun r i => ?_⟩
    · rintro i ⟨child, h⟩
      rw [Runtime.lookup_started] at h
      split at h
      next heq =>
        injection heq with hs hi
        exact .inr ⟨hs, hi⟩
      next => exact .inl ⟨child, h⟩
    · rintro r ⟨e, he, rfl⟩
      exact endpoint_added he
    · rw [at_setState, at_add]

/-- The replicas a drain leaves are the others. -/
theorem at_drainOf {serviceId replicaId : Uuid} {index : Nat} (env : Env) (ms : ManagedService)
    (drained : Uuid) (i : Nat) (c : Controller) :
    (c.drainOf env ms drained i).registry.At serviceId replicaId index ↔
      c.registry.At serviceId replicaId index ∧ replicaId ≠ drained := by
  show (remove (c.registry.setState drained .draining) drained).At _ _ _ ↔ _
  rw [at_remove, at_setState]

/-- A drain takes a replica down with its child and its endpoint, and brings nothing
up. -/
theorem drain_footprint (henv : StopsUntrack env) {ms : ManagedService} {r : Replica}
    (hr : r ∈ c.registry.replicasOf ms.serviceId) (serviceId : Uuid) :
    Shrinks c (c.drainOf env ms r.id r.index) serviceId ∧
      (Owned c serviceId → Owned (c.drainOf env ms r.id r.index) serviceId) := by
  obtain ⟨hreg, hservice⟩ := mem_replicasOf.mp hr
  have hchild : ∀ i, (c.drainOf env ms r.id r.index).ChildAt serviceId i →
      c.ChildAt serviceId i ∧ (serviceId = ms.serviceId → i ≠ r.index) := by
    rintro i ⟨child, h⟩
    obtain ⟨h, hne⟩ := Runtime.lookup_stop h
    exact ⟨⟨child, h⟩, fun hs hi => hne (henv _ _) (by rw [hs, hi])⟩
  have hendpoint : ∀ id, (c.drainOf env ms r.id r.index).EndpointAt serviceId id →
      c.EndpointAt serviceId id ∧ (serviceId = ms.serviceId → id ≠ r.id) := by
    rintro id ⟨e, he, rfl⟩
    obtain ⟨he, hne⟩ := Pools.mem_endpoints_removeReplica he
    obtain ⟨e', he', hid⟩ := Pools.mem_endpoints_setReplicaHealthy he
    exact ⟨⟨e', he', hid⟩, hne⟩
  -- the drained replica is of the drained service
  have hother : ∀ {id i}, c.registry.At serviceId id i → (serviceId = ms.serviceId → id ≠ r.id) →
      id ≠ r.id := by
    rintro id i ⟨x, hx, hs, rfl, -⟩ hne heq
    rw [eq_of_id_eq hx hreg heq] at hs
    exact hne (hs.symm.trans hservice) heq
  refine ⟨⟨fun i hi => (hchild i hi).1, fun id hid => (hendpoint id hid).1,
    fun id i h => ((at_drainOf env ms r.id r.index c).mp h).1⟩, fun h => ⟨fun i hi => ?_,
      fun id hid => ?_⟩⟩
  · obtain ⟨hold, hne⟩ := hchild i hi
    obtain ⟨id, hid⟩ := h.child i hold
    refine ⟨id, (at_drainOf env ms r.id r.index c).mpr ⟨hid, hother hid fun hs heq => ?_⟩⟩
    subst heq
    exact hne hs (hid.index_eq hreg)
  · obtain ⟨hold, hne⟩ := hendpoint id hid
    obtain ⟨i, hi⟩ := h.endpoint id hold
    exact ⟨i, (at_drainOf env ms r.id r.index c).mpr ⟨hi, hother hi hne⟩⟩

/-- An adopted workload gets a replica and an endpoint; its child is already there. -/
theorem adopt_footprint (env : Env) (ms : ManagedService) (status : RuntimeStatus)
    (c : Controller) (serviceId : Uuid) :
    (serviceId ≠ ms.serviceId → Shrinks c (c.adopt env ms status) serviceId) ∧
      (Owned c serviceId → Owned (c.adopt env ms status) serviceId) := by
  refine Adds.footprint status.replicaIndex ⟨fun _ h => .inl h, ?_, fun r i => ?_⟩
  · rintro r ⟨e, he, rfl⟩
    exact endpoint_added he
  · show ReplicaRegistry.At (setState _ _ _) _ _ _ ↔ _
    rw [at_setState, at_add]

/-- What a change by the controller may do to a service: bring nothing of it up unless
the change is for the service, and keep it owned. -/
structure KeepsOwner (P : ManagedService → Prop) (serviceId : Uuid) (c c' : Controller) : Prop where
  shrinks : (∀ ms, P ms → ms.serviceId ≠ serviceId) → Shrinks c c' serviceId
  owned : Owned c serviceId → Owned c' serviceId

theorem step_keepsOwner (henv : StopsUntrack env) (serviceId : Uuid) (h : Step env P c c') :
    KeepsOwner P serviceId c c' := by
  cases h with
  | @launch ms index hms =>
    have hlaunch := launch_footprint henv (launchSpec ms index) c serviceId
    exact ⟨fun hP => hlaunch.1 fun hs => hP _ hms hs.symm, hlaunch.2⟩
  | drain _ hr =>
    have hdrain := drain_footprint henv hr serviceId
    exact ⟨fun _ => hdrain.1, hdrain.2⟩
  | @adopt ms status ledger hms =>
    have hadopt := adopt_footprint env ms status { c with ledger := ledger } serviceId
    refine ⟨fun hP => ?_, fun h => hadopt.2 ⟨h.child, h.endpoint⟩⟩
    have hshrinks := hadopt.1 fun hs => hP ms hms hs.symm
    exact ⟨hshrinks.child, hshrinks.endpoint, hshrinks.replica⟩
  | stop instanceId =>
    have hstop := shrinks_stop c instanceId (env.stop c.calls instanceId) serviceId
    have hstop : Shrinks c (c.runtimeStop env instanceId) serviceId :=
      ⟨hstop.child, hstop.endpoint, hstop.replica⟩
    exact ⟨fun _ => hstop, fun h => h.of_shrinks hstop fun _ _ hr => hr⟩
  | note => exact ⟨fun _ => ⟨fun _ h => h, fun _ h => h, fun _ _ h => h⟩,
      fun h => ⟨h.child, h.endpoint⟩⟩

/-- **An operation of the controller keeps every service it owns owned, and adds
nothing to a service outside its catalog snapshot.** -/
theorem Op.run_footprint (henv : StopsUntrack env) (op : Op) (c : Controller) (serviceId : Uuid) :
    KeepsOwner (· ∈ op.services) serviceId c (op.run env c) :=
  Steps.rel
    (fun c => ⟨fun _ => Shrinks.refl c serviceId, fun h => h⟩)
    (fun h h' => ⟨fun hP => (h.shrinks hP).trans (h'.shrinks hP), fun ho => h'.owned (h.owned ho)⟩)
    (step_keepsOwner henv serviceId) (op.run_steps (fun _ h => h) c)

/-! ## §4. Draining a whole service. -/

/-- The loop forgets exactly the replicas of its list. -/
theorem at_drainEach {serviceId replicaId : Uuid} {index : Nat} (ms : ManagedService)
    (l : List (Uuid × Nat)) (c : Controller) :
    (c.drainEach env ms l).registry.At serviceId replicaId index ↔
      c.registry.At serviceId replicaId index ∧ replicaId ∉ l.map Prod.fst := by
  induction l generalizing c with
  | nil => simp [Controller.drainEach]
  | cons x xs ih =>
    show (Controller.drainEach env ms xs (c.drainOf env ms x.1 x.2)).registry.At _ _ _ ↔ _
    rw [ih, at_drainOf, List.map_cons, List.mem_cons, not_or, and_assoc]

/-- **`drain_all_replicas` leaves no replica of the service registered.** -/
theorem drainAllReplicas_drained (ms : ManagedService) (c : Controller) (replicaId : Uuid)
    (index : Nat) : ¬ (c.drainAllReplicas env ms).registry.At ms.serviceId replicaId index := by
  intro h
  obtain ⟨⟨r, hr, hs, rfl, -⟩, hnotin⟩ := (at_drainEach ms _ c).mp h
  refine hnotin (List.mem_map.mpr ⟨(r.id, r.index), List.mem_map.mpr ⟨r, ?_, rfl⟩, rfl⟩)
  exact mem_replicasOf.mpr ⟨hr, hs⟩

end

end Denia.Autoscale
