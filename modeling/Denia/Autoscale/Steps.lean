/-
  Denia.Autoscale.Steps — every controller operation is a sequence of a few primitive steps:
  launch a replica at an unused index, drain a REGISTERED replica, adopt a running workload,
  stop an orphan, note something in the desired counts or the cooldowns.

  Main result: `Op.run_steps`.  A relation that every step respects is then respected by every
  operation, with no look at the loops of the controller.
-/
import Mathlib.Logic.Relation
import Denia.Autoscale.Controller

namespace Denia.Autoscale

open Relation

/-- The primitive steps, for services that meet `P`. -/
inductive Step (env : Env) (P : ManagedService → Prop) : Controller → Controller → Prop
  | launch {c : Controller} {ms : ManagedService} {index : Nat} (hms : P ms)
      (hindex : ∀ r ∈ c.registry.replicasOf ms.serviceId, r.index < index) :
      Step env P c (c.launchReplica env (launchSpec ms index)).1
  | drain {c : Controller} {ms : ManagedService} {r : Replica} (hms : P ms)
      (hr : r ∈ c.registry.replicasOf ms.serviceId) :
      Step env P c (c.drainOf env ms r.id r.index)
  | adopt {c : Controller} {ms : ManagedService} {status : RuntimeStatus}
      {ledger : ResourceLedger} (hms : P ms) (hservice : status.serviceId = ms.serviceId)
      (hdeployment : status.deploymentId = ms.deploymentId)
      (hledger : c.ledger.tryReserve ms.limits = some ledger) :
      Step env P c ({ c with ledger := ledger }.adopt env ms status)
  | stop {c : Controller} (instanceId : RuntimeInstanceId) :
      Step env P c (c.runtimeStop env instanceId)
  | note {c : Controller} (desired : AList fun _ : Uuid => Nat)
      (cooldowns : AList fun _ : Uuid => CooldownState) (calls : Nat) :
      Step env P c { c with desired := desired, cooldowns := cooldowns, calls := calls }

/-- A sequence of primitive steps. -/
abbrev Steps (env : Env) (P : ManagedService → Prop) : Controller → Controller → Prop :=
  ReflTransGen (Step env P)

variable {c : Controller} {r : Replica}

variable {c' : Controller} {reg : ReplicaRegistry} {replicaId : Uuid} {index : Nat}

variable {env : Env} {P : ManagedService → Prop} {R : Controller → Controller → Prop}

/-- A reflexive and transitive relation that every step respects is respected by
every sequence of steps. -/
theorem Steps.rel (hrefl : ∀ c, R c c) (htrans : ∀ {a b c}, R a b → R b c → R a c)
    (hstep : ∀ {a b}, Step env P a b → R a b) (h : Steps env P c c') : R c c' := by
  induction h with
  | refl => exact hrefl c
  | tail _ hlast ih => exact htrans ih (hstep hlast)

/-- What the launch and drain loops are made of: launches at an index above those in use,
drains of registered replicas, and notes. -/
structure LoopRules (env : Env) (P : ManagedService → Prop)
    (R : Controller → Controller → Prop) : Prop where
  launch : ∀ {c : Controller} {ms : ManagedService} {index : Nat}, P ms →
    (∀ r ∈ c.registry.replicasOf ms.serviceId, r.index < index) →
    R c (c.launchReplica env (launchSpec ms index)).1
  drain : ∀ {c : Controller} {ms : ManagedService} {r : Replica}, P ms →
    r ∈ c.registry.replicasOf ms.serviceId → R c (c.drainOf env ms r.id r.index)
  note : ∀ {c : Controller} (desired : AList fun _ : Uuid => Nat) (calls : Nat),
    R c { c with desired := desired, calls := calls }

/-- A tick of a service also sets the service's cooldown. -/
structure TurnRules (env : Env) (P : ManagedService → Prop)
    (R : Controller → Controller → Prop) : Prop extends LoopRules env P R where
  watch : ∀ {c : Controller} {ms : ManagedService} (cd : CooldownState) (calls : Nat), P ms →
    R c { c with cooldowns := c.cooldowns.insert ms.serviceId cd, calls := calls }

/-- The end of a tick: cooldowns of services it does not manage are dropped. -/
def Controller.pruneCooldowns (services : List ManagedService) (c : Controller) : Controller :=
  { c with cooldowns := Lib.restrict c.cooldowns (· ∈ services.map (·.serviceId)) }

/-- A relation that every step keeps. -/
structure StepRules (env : Env) (P : ManagedService → Prop)
    (R : Controller → Controller → Prop) : Prop extends TurnRules env P R where
  prune : ∀ {c : Controller} (services : List ManagedService), R c (c.pruneCooldowns services)

theorem Step.rules (env : Env) (P : ManagedService → Prop) : StepRules env P (Step env P) where
  launch := .launch
  drain := .drain
  note := fun desired calls => .note desired _ calls
  watch := fun _ calls _ => .note _ _ calls
  prune := fun _ => .note _ _ _

variable {state : ReplicaState}

/-! ## §1. Which replicas a launch and a drain leave registered. -/

/-- Setting the state of another replica leaves a replica as it is. -/
theorem mem_setState_of_ne (hr : r ∈ reg.replicas) (hne : r.id ≠ replicaId) :
    r ∈ (reg.setState replicaId state).replicas :=
  Lib.mem_updateFirst_of_neg hr (beq_eq_false_iff_ne.mpr hne)

/-- A registered replica is there with the state that was set. -/
theorem mem_setState_self (hr : r ∈ reg.replicas) :
    { r with state := state } ∈ (reg.setState r.id state).replicas := by
  have key : ∀ l : List Replica, (l.map (·.id)).Nodup → r ∈ l →
      { r with state := state } ∈
        Lib.updateFirst (·.id == r.id) (fun x => { x with state := state }) l := by
    intro l
    induction l with
    | nil => intro _ h; cases h
    | cons x xs ih =>
      intro hnodup hmem
      rw [List.map_cons, List.nodup_cons] at hnodup
      unfold Lib.updateFirst
      rcases List.mem_cons.mp hmem with rfl | hmem
      · rw [if_pos (by simp)]
        exact List.mem_cons_self
      · have hne : x.id ≠ r.id := fun h => hnodup.1 (List.mem_map.mpr ⟨r, hmem, h.symm⟩)
        rw [if_neg (by simpa using hne)]
        exact List.mem_cons_of_mem _ (ih hnodup.2 hmem)
  exact key reg.replicas reg.ids_nodup hr

/-- A launch keeps the replicas that were registered. -/
theorem mem_launchReplica {spec : LaunchSpec} (hr : r ∈ c.registry.replicas) :
    r ∈ (c.launchReplica env spec).1.registry.replicas := by
  have hlaunched := launchReplica_launched env spec c
  generalize c.launchReplica env spec = result at hlaunched ⊢
  cases hlaunched with
  | denied => exact hr
  | notStarted => exact hr
  | @unhealthy _ socket =>
    have h := c.registry.remove_add spec.serviceId spec.deploymentId spec.replicaIndex socket
      spec.limits
    exact h ▸ hr
  | healthy =>
    exact mem_setState_of_ne (List.mem_append_left _ hr)
      (Nat.ne_of_lt (c.registry.id_range r hr).2)

variable {ms : ManagedService}

/-- A drain keeps the other replicas. -/
theorem mem_drainOf (hr : r ∈ c.registry.replicas) (hne : r.id ≠ replicaId) :
    r ∈ (c.drainOf env ms replicaId index).registry.replicas :=
  List.mem_filter.mpr ⟨mem_setState_of_ne hr hne, by simpa using hne⟩

/-- The replicas after a drain were registered before it. -/
theorem mem_of_mem_drainOf (hr : r ∈ (c.drainOf env ms replicaId index).registry.replicas) :
    r ∈ c.registry.replicas ∧ r.id ≠ replicaId := by
  obtain ⟨hr, hne⟩ := List.mem_filter.mp hr
  have hne : r.id ≠ replicaId := by simpa using hne
  rcases Lib.mem_updateFirst hr with hr | ⟨x, -, hx, rfl⟩
  · exact ⟨hr, hne⟩
  · exact absurd (by simpa using hx) hne

variable {serviceId : Uuid}

/-! ## §2. The loops take steps. -/

section
/-- `next_replica_index` is above every index in use. -/
theorem index_lt_nextReplicaIndex (hr : r ∈ c.registry.replicasOf serviceId) :
    r.index < c.nextReplicaIndex serviceId := by
  unfold Controller.nextReplicaIndex
  have hmem : r.index ∈ (c.registry.replicasOf serviceId).map (·.index) :=
    List.mem_map.mpr ⟨r, hr, rfl⟩
  cases hmax : ((c.registry.replicasOf serviceId).map (·.index)).max? with
  | none =>
    rw [List.max?_eq_none_iff] at hmax
    simp [hmax] at hmem
  | some m =>
    have hle : r.index ≤ m := (List.max?_eq_some_iff.mp hmax).2 _ hmem
    simp only [Option.map_some, Option.getD_some]
    omega

theorem maxByIndex_mem {replicas : List Replica} (h : maxByIndex replicas = some r) :
    r ∈ replicas := by
  refine List.foldlRecOn replicas _
    (motive := fun best => ∀ r, best = some r → r ∈ replicas) ?_ ?_ r h
  · rintro r ⟨⟩
  · intro best hbest x hx r hr
    cases best with
    | none =>
      injection hr with hr
      exact hr ▸ hx
    | some =>
      simp only at hr
      split at hr
      · injection hr with hr
        exact hr ▸ hx
      · exact hbest r hr

section
variable (hR : LoopRules env P R)
include hR

theorem launchUpTo_steps (hms : P ms) (n : Nat) (c : Controller) :
    ReflTransGen R c (c.launchUpTo env ms n).1 := by
  induction n generalizing c with
  | zero => exact .refl
  | succ n ih =>
    have hstep : R c
        (c.launchReplica env (launchSpec ms (c.nextReplicaIndex ms.serviceId))).1 :=
      hR.launch hms fun _ hr => index_lt_nextReplicaIndex hr
    unfold Controller.launchUpTo
    split
    next c' _ hlaunch =>
      rw [hlaunch] at hstep
      exact .head hstep (ih c')
    next c' _ hlaunch =>
      rw [hlaunch] at hstep
      exact .single hstep

theorem drainDown_steps (hms : P ms) (n : Nat) (c : Controller) :
    ReflTransGen R c (c.drainDown env ms n).1 := by
  induction n generalizing c with
  | zero => exact .refl
  | succ n ih =>
    unfold Controller.drainDown
    split
    next => exact .refl
    next r hr => exact .head (hR.drain hms (maxByIndex_mem hr)) (ih _)

/-- The drain loop, over replicas that are registered and distinct when it starts.
The invariant: draining one leaves the later ones registered. -/
theorem drainEach_steps (hms : P ms) (l : List Replica) (c : Controller)
    (hmem : ∀ r ∈ l, r ∈ c.registry.replicasOf ms.serviceId) (hnodup : (l.map (·.id)).Nodup) :
    ReflTransGen R c (c.drainEach env ms (l.map fun r => (r.id, r.index))) := by
  induction l generalizing c with
  | nil => exact .refl
  | cons x xs ih =>
    rw [List.map_cons, List.nodup_cons] at hnodup
    refine .head (hR.drain hms (hmem x List.mem_cons_self)) (ih _ ?_ hnodup.2)
    intro r hr
    obtain ⟨hreg, hservice⟩ :=
      ReplicaRegistry.mem_replicasOf.mp (hmem r (List.mem_cons_of_mem _ hr))
    have hne : r.id ≠ x.id := fun h => hnodup.1 (List.mem_map.mpr ⟨r, hr, h⟩)
    exact ReplicaRegistry.mem_replicasOf.mpr ⟨mem_drainOf hreg hne, hservice⟩

theorem drainAllReplicas_steps (hms : P ms) (c : Controller) :
    ReflTransGen R c (c.drainAllReplicas env ms) :=
  drainEach_steps hR hms _ c (fun _ h => h)
    (c.registry.ids_nodup.sublist (List.filter_sublist.map _))

theorem setDesired_step {n : Nat} (c : Controller) :
    R c (c.setDesired env serviceId n) := hR.note _ _

/-! ## §3. The operations take steps. -/

theorem rolloutStep_steps (hms : P ms) {old : Replica} (c : Controller)
    (hold : old ∈ c.registry.replicasOf ms.serviceId) :
    ReflTransGen R c (c.rolloutStep env ms old).1 := by
  obtain ⟨hreg, hservice⟩ := ReplicaRegistry.mem_replicasOf.mp hold
  set spec := launchSpec ms (c.nextReplicaIndex ms.serviceId) with hspec
  have hlaunch : R c (c.launchReplica env spec).1 :=
    hR.launch hms fun _ hr => index_lt_nextReplicaIndex hr
  have hdrain : R c (c.drainOf env ms old.id old.index) := hR.drain hms hold
  have hthen : R (c.drainOf env ms old.id old.index)
      ((c.drainOf env ms old.id old.index).launchReplica env spec).1 := by
    refine hR.launch hms fun r hr => index_lt_nextReplicaIndex ?_
    obtain ⟨hr, hs⟩ := ReplicaRegistry.mem_replicasOf.mp hr
    exact ReplicaRegistry.mem_replicasOf.mpr ⟨(mem_of_mem_drainOf hr).1, hs⟩
  have hkept : old ∈ (c.launchReplica env spec).1.registry.replicasOf ms.serviceId :=
    ReplicaRegistry.mem_replicasOf.mpr ⟨mem_launchReplica hreg, hservice⟩
  unfold Controller.rolloutStep
  simp only [← hspec]
  refine .tail ?_ (setDesired_step hR _)
  -- one replica: launch, then drain; several: drain, then launch
  split
  · split
    next c' _ h =>
      rw [h] at hlaunch hkept
      exact .head hlaunch (.single (hR.drain hms hkept))
    next c' _ h =>
      rw [h] at hlaunch
      exact .single hlaunch
  · split
    next c' _ h =>
      rw [h] at hthen
      exact .head hdrain (.single hthen)
    next c' _ h =>
      rw [h] at hthen
      exact .head hdrain (.single hthen)

end

theorem tickDecision_step (hR : TurnRules env P R) (hms : P ms) (nowS start : Nat)
    (c : Controller) : R c (c.tickDecision env ms nowS start).1 := by
  unfold Controller.tickDecision
  split
  · split <;> exact hR.note c.desired c.calls
  · simp only
    split
    · exact hR.note c.desired _
    · split
      · exact hR.note c.desired _
      · unfold Controller.scaledCount
        simp only
        split
        · exact hR.watch _ _ hms
        · split <;> exact hR.watch _ _ hms

theorem tickService_steps (hR : TurnRules env P R) (hms : P ms) (nowS : Nat) (c : Controller) :
    ReflTransGen R c (c.tickService env nowS ms).1 := by
  unfold Controller.tickService
  simp only
  split
  next old hold => exact rolloutStep_steps hR.toLoopRules hms c (List.mem_of_find?_eq_some hold)
  next =>
    have hdecide : R c
        (c.tickDecision env ms nowS (c.registry.replicaCount ms.serviceId)).1 :=
      tickDecision_step hR hms _ _ _
    split
    next c' _ h =>
      rw [h] at hdecide
      exact .head hdecide (.single (setDesired_step hR.toLoopRules c'))
    next c' h =>
      rw [h] at hdecide
      exact .head hdecide
        (.tail (drainAllReplicas_steps hR.toLoopRules hms c') (setDesired_step hR.toLoopRules _))
    next c' desired h =>
      rw [h] at hdecide
      refine .head hdecide (.tail ?_ (setDesired_step hR.toLoopRules _))
      exact (launchUpTo_steps hR.toLoopRules hms _ c').trans
        (drainDown_steps hR.toLoopRules hms _ _)

theorem topUpToDesired_steps (hR : LoopRules env P R) (hms : P ms) (c : Controller) :
    ReflTransGen R c (c.topUpToDesired env ms).1 :=
  .head (hR.note c.desired (c.calls + 1))
    (.tail (launchUpTo_steps hR hms _ _) (setDesired_step hR _))

theorem adoptOrStop_step {services : List ManagedService} (hP : ∀ ms ∈ services, P ms)
    (status : RuntimeStatus) (c : Controller) :
    Step env P c (c.adoptOrStop env services status).1 := by
  unfold Controller.adoptOrStop
  simp only
  split
  next => exact .stop _
  next ms hfind =>
    have hservice : ms.serviceId = status.serviceId := by
      simpa using List.find?_some hfind
    split
    next hdep =>
      unfold Controller.reserve
      cases hledger : c.ledger.tryReserve ms.limits with
      | none => exact .stop _
      | some =>
        exact .adopt (hP ms (List.mem_of_find?_eq_some hfind)) hservice.symm hdep hledger
    next => exact .stop _

end

/-- The services of the snapshot an operation sees. -/
def Op.services : Op → List ManagedService
  | .tick services _ => services
  | .activateOne resolved => resolved.toList
  | .reconcileBoot services => services
  | .reconcileService resolved => resolved.toList
  | .drainAll _ resolved => resolved.toList

section
variable {services : List ManagedService}

theorem tickServices_steps (hR : TurnRules env P R) (hP : ∀ ms ∈ services, P ms) (nowS : Nat)
    (c : Controller) : ReflTransGen R c (c.tickServices env nowS services).1 := by
  induction services generalizing c with
  | nil => exact .refl
  | cons ms rest ih =>
    exact (tickService_steps hR (hP ms List.mem_cons_self) nowS c).trans
      (ih (fun m hm => hP m (List.mem_cons_of_mem _ hm)) _)

theorem topUpAll_steps (hR : LoopRules env P R) (hP : ∀ ms ∈ services, P ms) (c : Controller) :
    ReflTransGen R c (c.topUpAll env services).1 := by
  induction services generalizing c with
  | nil => exact .refl
  | cons ms rest ih =>
    exact (topUpToDesired_steps hR (hP ms List.mem_cons_self) c).trans
      (ih (fun m hm => hP m (List.mem_cons_of_mem _ hm)) _)

/-- The operation is a tick. -/
def Op.isTick : Op → Bool
  | .tick _ _ => true
  | _ => false

/-- The operation is a boot reconcile. -/
def Op.isBoot : Op → Bool
  | .reconcileBoot _ => true
  | _ => false

/-- Activation, reconcile of a service and drain take loop steps only. -/
theorem Op.run_of_loop (hR : LoopRules env P R) (op : Op) (htick : op.isTick = false)
    (hboot : op.isBoot = false) (hP : ∀ ms ∈ op.services, P ms) (c : Controller) :
    ReflTransGen R c (op.run env c) := by
  cases op with
  | tick => cases htick
  | activateOne resolved =>
    cases resolved with
    | none => exact .refl
    | some ms =>
      have hms : P ms := hP ms (by simp [Op.services])
      show ReflTransGen R c (c.activateOne env (some ms)).1
      unfold Controller.activateOne
      simp only
      split
      · exact .refl
      · next hcount =>
        have hnone : c.registry.replicasOf ms.serviceId = [] := by
          rw [← List.length_eq_zero_iff]
          show c.registry.replicaCount ms.serviceId = 0
          omega
        have hstep : R c (c.launchReplica env (launchSpec ms 0)).1 :=
          hR.launch hms (by rw [hnone]; simp)
        split
        · exact .refl
        · split <;> next h =>
            rw [h] at hstep
            exact .single hstep
  | reconcileBoot => cases hboot
  | reconcileService resolved =>
    cases resolved with
    | none => exact .refl
    | some ms => exact topUpToDesired_steps hR (hP ms (by simp [Op.services])) c
  | drainAll serviceId resolved =>
    cases resolved with
    | none => exact .refl
    | some ms =>
      exact .tail (drainAllReplicas_steps hR (hP ms (by simp [Op.services])) c)
        (setDesired_step hR _)

/-- An operation that is no boot reconcile takes steps of any relation with these rules. -/
theorem Op.run_of_rules (hR : StepRules env P R) (op : Op) (hboot : op.isBoot = false)
    (hP : ∀ ms ∈ op.services, P ms) (c : Controller) : ReflTransGen R c (op.run env c) := by
  cases htick : op.isTick with
  | false => exact op.run_of_loop hR.toLoopRules htick hboot hP c
  | true =>
    cases op with
    | tick services nowS =>
      exact .tail (tickServices_steps hR.toTurnRules hP nowS c) (hR.prune services)
    | activateOne | reconcileBoot | reconcileService | drainAll => cases htick

end

theorem adoptRunning_steps {services : List ManagedService} (hP : ∀ ms ∈ services, P ms)
    (running : List RuntimeStatus) (c : Controller) :
    Steps env P c (c.adoptRunning env services running).1 := by
  induction running generalizing c with
  | nil => exact .refl
  | cons status rest ih => exact .head (adoptOrStop_step hP status c) (ih _)

/-- **An operation takes primitive steps only**, for services of its snapshot. -/
theorem Op.run_steps (op : Op) (hP : ∀ ms ∈ op.services, P ms) (c : Controller) :
    Steps env P c (op.run env c) := by
  cases hboot : op.isBoot with
  | false => exact op.run_of_rules (Step.rules env P) hboot hP c
  | true =>
    cases op with
    | reconcileBoot =>
      exact .head (.note c.desired c.cooldowns (c.calls + 1))
        ((adoptRunning_steps hP _ _).trans (topUpAll_steps (Step.rules env P).toLoopRules hP _))
    | tick | activateOne | reconcileService | drainAll => cases hboot

/-! ## §4. Between operations every registered replica is Healthy. -/

/-- Every registered replica is healthy. -/
def AllHealthy (c : Controller) : Prop := ∀ r ∈ c.registry.replicas, r.state = .healthy

theorem AllHealthy.add (h : AllHealthy c) {deploymentId : Uuid} {socket : String}
    {reserved : ResourceLimits}
    (hreg : c'.registry = (c.registry.add serviceId deploymentId index socket
      reserved).1.setState c.registry.nextId .healthy) : AllHealthy c' := by
  intro r hr
  rw [hreg, ReplicaRegistry.replicas_add_setState] at hr
  rcases List.mem_append.mp hr with hr | hr
  · exact h r hr
  · rw [List.mem_singleton.mp hr]

/-- A step leaves only Healthy replicas: a launch is rolled back or promoted, a drain
removes what it marked. -/
theorem step_allHealthy (hstep : Step env P c c') (h : AllHealthy c) : AllHealthy c' := by
  cases hstep with
  | @launch ms index hms hindex =>
    have hlaunched := launchReplica_launched env (launchSpec ms index) c
    generalize c.launchReplica env (launchSpec ms index) = result at hlaunched ⊢
    cases hlaunched with
    | denied => exact h
    | notStarted => exact h
    | @unhealthy _ socket =>
      have hsame := c.registry.remove_add ms.serviceId ms.deploymentId index socket ms.limits
      exact fun r hr => h r (hsame ▸ hr)
    | healthy => exact h.add rfl
  | drain => exact fun r hr => h r (mem_of_mem_drainOf hr).1
  | adopt => exact h.add rfl
  | stop => exact h
  | note => exact h

theorem steps_allHealthy (hsteps : Steps env P c c') (h : AllHealthy c) : AllHealthy c' := by
  induction hsteps with
  | refl => exact h
  | tail _ hlast ih => exact step_allHealthy hlast ih

theorem runOps_allHealthy (h : AllHealthy c) (ops : List Op) : AllHealthy (runOps env c ops) := by
  refine List.foldlRecOn ops (Op.run env) h fun c hc op _ => ?_
  have hsteps : Steps env (fun _ => True) c (op.run env c) :=
    op.run_steps (fun _ _ => trivial) c
  exact steps_allHealthy hsteps hc

end Denia.Autoscale
