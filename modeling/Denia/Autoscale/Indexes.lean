/-
  Denia.Autoscale.Indexes — replica indexes do not collide.

  The runtime knows a workload by `(service_id, replica_index)` only, so one index used
  twice ends a live replica: a start REPLACES the child of its key, a stop removes it.
  An index is `max + 1`, a hard-coded 0 on an activation, or taken over from the runtime
  at boot.

  Main results: `freeStep_distinct`, one step; `indexes_distinct`, if a boot reconcile finds
  no replica registered; `indexes_collide`, a second one adopts every workload AGAIN.
-/
import Denia.Autoscale.Conservation
import Denia.Lib.Run

namespace Denia.Autoscale

open Relation Lib

/-- The key under which the runtime knows a replica's workload. -/
def Replica.instanceId (r : Replica) : RuntimeInstanceId := ⟨r.serviceId, r.index⟩

/-- No two registered replicas share a key. -/
def DistinctKeys (c : Controller) : Prop := (c.registry.replicas.map Replica.instanceId).Nodup

/-- No registered replica has this index in this service. -/
def FreeIndex (c : Controller) (serviceId : Uuid) (index : Nat) : Prop :=
  ∀ r ∈ c.registry.replicasOf serviceId, r.index ≠ index

/-- The primitive steps that respect the keys in use: what is started or stopped is under
a key that no OTHER registered replica has. -/
inductive FreeStep (env : Env) : Controller → Controller → Prop
  | launch {c : Controller} {ms : ManagedService} {index : Nat}
      (hfree : FreeIndex c ms.serviceId index) :
      FreeStep env c (c.launchReplica env (launchSpec ms index)).1
  | drain {c : Controller} {ms : ManagedService} {r : Replica}
      (hr : r ∈ c.registry.replicasOf ms.serviceId)
      (honly : ∀ x ∈ c.registry.replicasOf ms.serviceId, x.index = r.index → x = r) :
      FreeStep env c (c.drainOf env ms r.id r.index)
  | adopt {c : Controller} {ms : ManagedService} {status : RuntimeStatus}
      {ledger : ResourceLedger} (hfree : FreeIndex c ms.serviceId status.replicaIndex) :
      FreeStep env c ({ c with ledger := ledger }.adopt env ms status)
  | stop {c : Controller} {instanceId : RuntimeInstanceId}
      (hfree : FreeIndex c instanceId.serviceId instanceId.replicaIndex) :
      FreeStep env c (c.runtimeStop env instanceId)
  | note {c : Controller} (desired : AList fun _ : Uuid => Nat)
      (cooldowns : AList fun _ : Uuid => CooldownState) (calls : Nat) :
      FreeStep env c { c with desired := desired, cooldowns := cooldowns, calls := calls }

variable {c c' : Controller} {serviceId deploymentId : Uuid} {index : Nat} {r : Replica}
  {socket : String} {reserved : ResourceLimits} {env : Env}

/-! ## §1. Keys. -/
theorem FreeIndex.ne (h : FreeIndex c serviceId index) (hr : r ∈ c.registry.replicas) :
    r.instanceId ≠ ⟨serviceId, index⟩ := by
  intro heq
  injection heq with hservice hindex
  exact h r (ReplicaRegistry.mem_replicasOf.mpr ⟨hr, hservice⟩) hindex

/-- Two registered replicas with one key are one replica. -/
theorem DistinctKeys.eq_of_key (h : DistinctKeys c) {x : Replica} (hr : r ∈ c.registry.replicas)
    (hx : x ∈ c.registry.replicas) (hkey : r.instanceId = x.instanceId) : r = x :=
  List.inj_on_of_nodup_map h hr hx hkey

theorem DistinctKeys.of_eq (h : DistinctKeys c)
    (hreg : c'.registry.replicas = c.registry.replicas) : DistinctKeys c' := by
  unfold DistinctKeys
  rwa [hreg]

/-- A replica registered under a free key. -/
theorem DistinctKeys.add (h : DistinctKeys c) (hfree : FreeIndex c serviceId index)
    (hreg : c'.registry = (c.registry.add serviceId deploymentId index socket
      reserved).1.setState c.registry.nextId .healthy) : DistinctKeys c' := by
  have hreplicas := c.registry.replicas_add_setState serviceId deploymentId index socket
    reserved .healthy
  rw [← hreg] at hreplicas
  unfold DistinctKeys
  rw [hreplicas, List.map_append, List.nodup_append]
  refine ⟨h, by simp, ?_⟩
  intro key hkey key' hkey' heq
  obtain ⟨r, hr, rfl⟩ := List.mem_map.mp hkey
  simp only [List.map_cons, List.map_nil, List.mem_singleton] at hkey'
  exact hfree.ne hr (heq.trans hkey')

/-- **A step that respects the keys in use keeps them distinct.** -/
theorem freeStep_distinct (hstep : FreeStep env c c') (h : DistinctKeys c) : DistinctKeys c' := by
  cases hstep with
  | @launch ms index hfree =>
    have hlaunched := launchReplica_launched env (launchSpec ms index) c
    generalize c.launchReplica env (launchSpec ms index) = result at hlaunched ⊢
    cases hlaunched with
    | denied => exact h
    | notStarted => exact h.of_eq rfl
    | unhealthy => exact h.of_eq (c.registry.remove_add ..)
    | healthy => exact h.add hfree rfl
  | @drain ms r hr honly =>
    have hreplicas := c.registry.replicas_setState_remove r.id .draining
    show ((c.registry.setState r.id .draining).remove r.id).replicas.map _ |>.Nodup
    rw [hreplicas]
    exact h.sublist (List.filter_sublist.map _)
  | adopt hfree => exact h.add hfree rfl
  | stop => exact h.of_eq rfl
  | note => exact h.of_eq rfl

/-! ## §2. Workloads. -/

/-- What a run of the controller leaves of the workloads: ids are never given twice, and a
replica that is registered before and after has its child as it was. -/
structure KeepsWorkloads (c c' : Controller) : Prop where
  nextId_le : c.registry.nextId ≤ c'.registry.nextId
  older : ∀ x ∈ c'.registry.replicas, x.id < c.registry.nextId →
    ∃ r ∈ c.registry.replicas, r.id = x.id ∧ r.instanceId = x.instanceId
  child : ∀ r ∈ c.registry.replicas, (∃ x ∈ c'.registry.replicas, x.id = r.id) →
    c'.runtime.children.lookup r.instanceId = c.runtime.children.lookup r.instanceId

theorem KeepsWorkloads.refl (c : Controller) : KeepsWorkloads c c :=
  ⟨le_rfl, fun x hx _ => ⟨x, hx, rfl, rfl⟩, fun _ _ _ => rfl⟩

variable {a b : Controller}

theorem KeepsWorkloads.trans (hab : KeepsWorkloads a b) (hbc : KeepsWorkloads b c) :
    KeepsWorkloads a c where
  nextId_le := hab.nextId_le.trans hbc.nextId_le
  older x hx hid := by
    obtain ⟨y, hy, hyid, hykey⟩ := hbc.older x hx (Nat.lt_of_lt_of_le hid hab.nextId_le)
    obtain ⟨r, hr, hrid, hrkey⟩ := hab.older y hy (hyid ▸ hid)
    exact ⟨r, hr, hrid.trans hyid, hrkey.trans hykey⟩
  child := by
    intro r hr hstays
    obtain ⟨x, hx, hxid⟩ := hstays
    -- an id that is registered at both ends is registered in between
    have hold : x.id < a.registry.nextId := hxid ▸ (a.registry.id_range r hr).2
    obtain ⟨y, hy, hyid, -⟩ := hbc.older x hx (Nat.lt_of_lt_of_le hold hab.nextId_le)
    obtain ⟨r', hr', hrid, hkey⟩ := hab.older y hy (hyid ▸ hold)
    have hsame : r' = r :=
      ReplicaRegistry.eq_of_id_eq hr' hr (hrid.trans (hyid.trans hxid))
    rw [hsame] at hkey
    have hlater := hbc.child y hy ⟨x, hx, hyid.symm⟩
    rw [← hkey] at hlater
    rw [hlater]
    exact hab.child r hr ⟨y, hy, hyid.trans hxid⟩

/-- A step that keeps the registered replicas, up to their states. -/
theorem KeepsWorkloads.of_same (hnext : c.registry.nextId ≤ c'.registry.nextId)
    (hreg : c'.registry.replicas = c.registry.replicas) (hchild : ∀ r ∈ c.registry.replicas,
      c'.runtime.children.lookup r.instanceId = c.runtime.children.lookup r.instanceId) :
    KeepsWorkloads c c' :=
  ⟨hnext, fun x hx _ => ⟨x, hreg ▸ hx, rfl, rfl⟩, fun r hr _ => hchild r hr⟩

/-- A step that registers one more. -/
theorem KeepsWorkloads.of_add
    (hreg : c'.registry = (c.registry.add serviceId deploymentId index socket
      reserved).1.setState c.registry.nextId .healthy) (hchild : ∀ r ∈ c.registry.replicas,
      c'.runtime.children.lookup r.instanceId = c.runtime.children.lookup r.instanceId) :
    KeepsWorkloads c c' where
  nextId_le := by
    rw [hreg]
    exact Nat.le_succ _
  older x hx hid := by
    rw [hreg, ReplicaRegistry.replicas_add_setState] at hx
    rcases List.mem_append.mp hx with hx | hx
    · exact ⟨x, hx, rfl, rfl⟩
    · rw [List.mem_singleton.mp hx] at hid
      exact absurd hid (Nat.lt_irrefl _)
  child r hr _ := hchild r hr

/-- **A step that respects the keys in use** leaves the workloads of the replicas that
stay registered alone. -/
theorem freeStep_keepsWorkloads (hstep : FreeStep env c c') : KeepsWorkloads c c' := by
  cases hstep with
  | @launch ms index hfree =>
    have hother : ∀ r ∈ c.registry.replicas, r.instanceId ≠ ⟨ms.serviceId, index⟩ :=
      fun r hr => hfree.ne hr
    have hstarted : ∀ socket, ∀ r ∈ c.registry.replicas,
        (c.runtime.started (launchSpec ms index).request socket).children.lookup r.instanceId
          = c.runtime.children.lookup r.instanceId := by
      intro socket r hr
      rw [Runtime.lookup_started]
      exact if_neg (hother r hr)
    have hlaunched := launchReplica_launched env (launchSpec ms index) c
    generalize c.launchReplica env (launchSpec ms index) = result at hlaunched ⊢
    cases hlaunched with
    | denied => exact .refl c
    | notStarted => exact .of_same le_rfl rfl fun _ _ => rfl
    | @unhealthy _ socket =>
      refine .of_same (Nat.le_succ _) (c.registry.remove_add ..) fun r hr => ?_
      exact (Runtime.lookup_stop_of_ne (hother r hr)).trans (hstarted socket r hr)
    | @healthy _ socket => exact .of_add rfl (hstarted socket)
  | @drain ms r hr honly =>
    refine ⟨le_rfl, fun x hx _ => ⟨x, (mem_of_mem_drainOf hx).1, rfl, rfl⟩, fun y hy hstays => ?_⟩
    obtain ⟨x, hx, hid⟩ := hstays
    -- what is still registered is not the drained one, so its key is another
    have hne : y.instanceId ≠ ⟨ms.serviceId, r.index⟩ := by
      intro heq
      injection heq with hs hindex
      have hsame := honly y (ReplicaRegistry.mem_replicasOf.mpr ⟨hy, hs⟩) hindex
      rw [hsame] at hid
      exact (mem_of_mem_drainOf hx).2 hid
    exact Runtime.lookup_stop_of_ne hne
  | adopt => exact .of_add rfl fun _ _ => rfl
  | stop hfree =>
    exact .of_same le_rfl rfl fun r hr => Runtime.lookup_stop_of_ne (hfree.ne hr)
  | note => exact .of_same le_rfl rfl fun _ _ => rfl

/-! ## §3. The operations. -/

/-- From distinct keys on, a step respects the keys in use. -/
def KeyStep (env : Env) (c c' : Controller) : Prop := DistinctKeys c → FreeStep env c c'

theorem keyStep_rules (env : Env) : StepRules env (fun _ => True) (KeyStep env) where
  launch _ hindex := fun _ => .launch fun r hr => Nat.ne_of_lt (hindex r hr)
  drain := by
    intro c ms r _ hr hdistinct
    refine .drain hr fun x hx hindex => ?_
    obtain ⟨hx, hsx⟩ := ReplicaRegistry.mem_replicasOf.mp hx
    obtain ⟨hr, hsr⟩ := ReplicaRegistry.mem_replicasOf.mp hr
    refine hdistinct.eq_of_key hx hr ?_
    unfold Replica.instanceId
    rw [hsx, hsr, hindex]
  note desired calls := fun _ => .note desired _ calls
  watch _ calls _ := fun _ => .note _ _ calls
  prune _ := fun _ => .note _ _ _

/-- Steps that respect the keys, from a state to one with distinct keys. -/
def FreeRun (env : Env) (c c' : Controller) : Prop :=
  ReflTransGen (FreeStep env) c c' ∧ DistinctKeys c'

theorem FreeRun.trans (hab : FreeRun env a b) (hbc : FreeRun env b c) :
    FreeRun env a c := ⟨hab.1.trans hbc.1, hbc.2⟩

theorem FreeRun.of_keySteps (h : ReflTransGen (KeyStep env) c c') (hdistinct : DistinctKeys c) :
    FreeRun env c c' := by
  induction h with
  | refl => exact ⟨.refl, hdistinct⟩
  | tail _ hlast ih =>
    have hstep := hlast ih.2
    exact ⟨.tail ih.1 hstep, freeStep_distinct hstep ih.2⟩

/-- The key of a running workload. -/
def runningKey (status : RuntimeStatus) : RuntimeInstanceId :=
  ⟨status.serviceId, status.replicaIndex⟩

/-- `list_running` lists a key once. -/
theorem listRunning_nodup (rt : Runtime) : (rt.listRunning.map runningKey).Nodup := by
  have hkeys : rt.listRunning.map runningKey = rt.children.entries.map Sigma.fst := by
    unfold Runtime.listRunning
    rw [List.map_map]
    rfl
  rw [hkeys]
  exact rt.children.nodupKeys

/-- One workload of the adoption loop whose key is free. -/
theorem adoptOrStop_free (env : Env) (services : List ManagedService) {status : RuntimeStatus}
    (hfree : FreeIndex c status.serviceId status.replicaIndex) :
    FreeStep env c (c.adoptOrStop env services status).1 ∧
      ∀ r ∈ (c.adoptOrStop env services status).1.registry.replicas,
        r ∈ c.registry.replicas ∨ r.instanceId = runningKey status := by
  have horphan : FreeStep env c (c.runtimeStop env ⟨status.serviceId, status.replicaIndex⟩) :=
    .stop hfree
  unfold Controller.adoptOrStop
  simp only
  split
  next => exact ⟨horphan, fun r hr => .inl hr⟩
  next ms hfind =>
    have hservice : ms.serviceId = status.serviceId := by simpa using List.find?_some hfind
    split
    next =>
      -- adopted, if the budget is there
      unfold Controller.reserve
      cases c.ledger.tryReserve ms.limits with
      | none => exact ⟨horphan, fun r hr => .inl hr⟩
      | some =>
        refine ⟨.adopt (hservice ▸ hfree), fun r hr => ?_⟩
        have hreplicas := c.registry.replicas_add_setState ms.serviceId status.deploymentId
          status.replicaIndex status.socketPath ms.limits .healthy
        have hr : r ∈ ((c.registry.add ms.serviceId status.deploymentId status.replicaIndex
          status.socketPath ms.limits).1.setState c.registry.nextId .healthy).replicas := hr
        rw [hreplicas] at hr
        rcases List.mem_append.mp hr with hr | hr
        · exact .inl hr
        · refine .inr ?_
          rw [List.mem_singleton.mp hr]
          show (⟨ms.serviceId, status.replicaIndex⟩ : RuntimeInstanceId) = _
          rw [hservice]
          rfl
    next => exact ⟨horphan, fun r hr => .inl hr⟩

/-- **The adoption loop**, over workloads of distinct keys that no registered replica has.
The invariant: adopting one leaves the keys of the later ones free. -/
theorem adoptRunning_free {services : List ManagedService} (running : List RuntimeStatus)
    (c : Controller) (hdistinct : DistinctKeys c) (hnodup : (running.map runningKey).Nodup)
    (hfree : ∀ status ∈ running, FreeIndex c status.serviceId status.replicaIndex) :
    FreeRun env c (c.adoptRunning env services running).1 := by
  induction running generalizing c with
  | nil => exact ⟨.refl, hdistinct⟩
  | cons status rest ih =>
    rw [List.map_cons, List.nodup_cons] at hnodup
    have hhead : FreeIndex c status.serviceId status.replicaIndex :=
      hfree status List.mem_cons_self
    obtain ⟨hstep, hadded⟩ := adoptOrStop_free env services hhead
    have hlater : ∀ later ∈ rest, FreeIndex (c.adoptOrStop env services status).1
        later.serviceId later.replicaIndex := by
      intro later hmem r hr hindex
      obtain ⟨hr, hservice⟩ := ReplicaRegistry.mem_replicasOf.mp hr
      rcases hadded r hr with hr | hkey
      · exact hfree later (List.mem_cons_of_mem _ hmem) r
          (ReplicaRegistry.mem_replicasOf.mpr ⟨hr, hservice⟩) hindex
      · have hsame : runningKey status = runningKey later := by
          rw [← hkey]
          unfold Replica.instanceId runningKey
          rw [hservice, hindex]
        exact hnodup.1 (List.mem_map.mpr ⟨later, hmem, hsame.symm⟩)
    have hrest := ih _ (freeStep_distinct hstep hdistinct) hnodup.2 hlater
    exact ⟨.head hstep hrest.1, hrest.2⟩

/-- A boot reconcile runs while no replica is registered; the other operations run at
any time. -/
def BootsEmpty (c : Controller) (op : Op) : Prop := op.isBoot = true → c.registry.replicas = []

/-- **An operation respects the keys in use.** -/
theorem Op.run_free (op : Op) (hboot : BootsEmpty c op) (hdistinct : DistinctKeys c) :
    FreeRun env c (op.run env c) := by
  cases hisBoot : op.isBoot with
  | false =>
    exact .of_keySteps (op.run_of_rules (keyStep_rules env) hisBoot (fun _ _ => trivial) c)
      hdistinct
  | true =>
    have hempty := hboot hisBoot
    cases op with
    | tick | activateOne | reconcileService | drainAll => cases hisBoot
    | reconcileBoot services =>
      set running := if env.store c.calls then c.runtime.listRunning else [] with hrunning
      have hnodup : (running.map runningKey).Nodup := by
        rw [hrunning]
        split
        · exact listRunning_nodup c.runtime
        · exact List.nodup_nil
      set started : Controller := { c with calls := c.calls + 1 } with hstarted
      have hfree : ∀ status ∈ running, FreeIndex started status.serviceId
          status.replicaIndex := by
        intro status _ r hr
        have hr : r ∈ c.registry.replicas := (ReplicaRegistry.mem_replicasOf.mp hr).1
        simp [hempty] at hr
      have hnote : FreeRun env c started :=
        ⟨.single (.note c.desired c.cooldowns (c.calls + 1)), hdistinct.of_eq rfl⟩
      have hadopt : FreeRun env started (started.adoptRunning env services running).1 :=
        adoptRunning_free running started hnote.2 hnodup hfree
      have htop : FreeRun env (started.adoptRunning env services running).1
          ((started.adoptRunning env services running).1.topUpAll env services).1 :=
        .of_keySteps (topUpAll_steps (keyStep_rules env).toLoopRules (fun _ _ => trivial) _)
          hadopt.2
      exact (hnote.trans hadopt).trans htop

/-! ## §4. Runs. -/

/-- An operation as a step of a run. -/
def opStep (env : Env) (c : Controller) (op : Op) : Option Controller := some (op.run env c)

theorem exec_opStep (env : Env) (c : Controller) (ops : List Op) :
    exec (opStep env) c ops = some (runOps env c ops) := by
  induction ops generalizing c with
  | nil => rfl
  | cons op rest ih => exact ih (op.run env c)

/-- Distinct keys are distinct indexes within a service. -/
theorem DistinctKeys.indexes (h : DistinctKeys c) (serviceId : Uuid) :
    ((c.registry.replicasOf serviceId).map (·.index)).Nodup := by
  have hkeys : (c.registry.replicasOf serviceId).map Replica.instanceId
      = ((c.registry.replicasOf serviceId).map (·.index)).map (RuntimeInstanceId.mk serviceId) := by
    rw [List.map_map]
    refine List.map_congr_left fun r hr => ?_
    show (⟨r.serviceId, r.index⟩ : RuntimeInstanceId) = _
    rw [(ReplicaRegistry.mem_replicasOf.mp hr).2]
    rfl
  have hnodup : ((c.registry.replicasOf serviceId).map Replica.instanceId).Nodup :=
    h.sublist (List.filter_sublist.map _)
  rw [hkeys] at hnodup
  exact hnodup.of_map _

theorem FreeRun.keepsWorkloads (h : FreeRun env c c') : KeepsWorkloads c c' := by
  obtain ⟨hsteps, -⟩ := h
  induction hsteps with
  | refl => exact .refl c
  | tail _ hlast ih => exact ih.trans (freeStep_keepsWorkloads hlast)

/-- **Replica indexes do not collide** in a run whose boot reconciles find an empty
registry: between two operations the indexes of a service are distinct, and an operation
starts and stops workloads only under keys that no other registered replica has, so that
a replica that stays registered keeps its child. -/
theorem indexes_distinct (env : Env) (host : HostCapacity) (headroom : Headroom)
    (runtime : Runtime) (ingress : Pools) (desired : AList fun _ : Uuid => Nat) (ops : List Op)
    (hboots : Guarded (opStep env) BootsEmpty (.fresh host headroom runtime ingress desired)
      ops) : (∀ done, done <+: ops → ∀ serviceId,
      (((runOps env (.fresh host headroom runtime ingress desired) done).registry.replicasOf
        serviceId).map (·.index)).Nodup) ∧
    ∀ done op, done ++ [op] <+: ops →
      let c := runOps env (.fresh host headroom runtime ingress desired) done
      ReflTransGen (FreeStep env) c (op.run env c) ∧
        ∀ r ∈ c.registry.replicas, (∃ x ∈ (op.run env c).registry.replicas, x.id = r.id) →
          (op.run env c).runtime.children.lookup r.instanceId
            = c.runtime.children.lookup r.instanceId := by
  set start := Controller.fresh host headroom runtime ingress desired with hstart
  have hfresh : DistinctKeys start := List.nodup_nil
  have hrun : ∀ done rest, done ++ rest = ops →
      DistinctKeys (runOps env start done) ∧
        Guarded (opStep env) BootsEmpty (runOps env start done) rest := by
    intro done rest heq
    obtain ⟨hdone, hrest⟩ := guarded_append (heq ▸ hboots) (exec_opStep env start done)
    refine ⟨exec_invariant DistinctKeys ?_ hfresh hdone (exec_opStep env start done), hrest⟩
    intro c op c' hdistinct hboot hstep
    cases hstep
    exact (op.run_free hboot hdistinct).2
  constructor
  · intro done hdone serviceId
    obtain ⟨rest, heq⟩ := hdone
    exact (hrun done rest heq).1.indexes serviceId
  · intro done op hdone
    obtain ⟨rest, heq⟩ := hdone
    rw [List.append_assoc] at heq
    obtain ⟨hdistinct, hboot, -⟩ := hrun done _ heq
    have hfree : FreeRun env (runOps env start done) (op.run env (runOps env start done)) :=
      op.run_free hboot hdistinct
    exact ⟨hfree.1, hfree.keepsWorkloads.child⟩

/-- A host on which one workload of `web` survived a restart. -/
def survivor : Runtime := ⟨AList.insert ⟨7, 0⟩ ⟨"web", 8, "/run/denia/web-0.sock"⟩ ∅⟩

/-- **A second boot reconcile** registers the surviving workload again, under the index it
already has. -/
theorem indexes_collide :
    let c := runOps calmEnv (.fresh ⟨4000, 4294967296⟩ ⟨0, 0⟩ survivor ⟨∅⟩ ∅)
      [.reconcileBoot [web ⟨500, 1024⟩], .reconcileBoot [web ⟨500, 1024⟩]]
    (c.registry.replicasOf 7).map (·.index) = [0, 0] ∧
      ¬ ((c.registry.replicasOf 7).map (·.index)).Nodup := by
  intro c
  have hindexes : (c.registry.replicasOf 7).map (·.index) = [0, 0] := by decide +kernel
  refine ⟨hindexes, ?_⟩
  rw [hindexes]
  decide

/-- One boot reconcile adopts the survivor, and the tick after it leaves the child alone. -/
theorem indexes_distinct_web :
    let start := Controller.fresh ⟨4000, 4294967296⟩ ⟨0, 0⟩ survivor ⟨∅⟩ ∅
    let c := runOps calmEnv start [.reconcileBoot [web ⟨500, 1024⟩]]
    let c' := (Op.tick [web ⟨500, 1024⟩] 0).run calmEnv c
    (c.registry.replicasOf 7).map (·.index) = [0] ∧
      ((c.registry.replicasOf 7).map (·.index)).Nodup ∧
      ∀ r ∈ c.registry.replicas, (∃ x ∈ c'.registry.replicas, x.id = r.id) →
        c'.runtime.children.lookup r.instanceId = c.runtime.children.lookup r.instanceId := by
  have hboots : Guarded (opStep calmEnv) BootsEmpty
      (.fresh ⟨4000, 4294967296⟩ ⟨0, 0⟩ survivor ⟨∅⟩ ∅)
      [.reconcileBoot [web ⟨500, 1024⟩], .tick [web ⟨500, 1024⟩] 0] := by
    refine ⟨fun _ => rfl, fun c _ => ⟨fun hboot => ?_, fun _ _ => trivial⟩⟩
    cases hboot
  have hall := indexes_distinct calmEnv ⟨4000, 4294967296⟩ ⟨0, 0⟩ survivor ⟨∅⟩ ∅ _ hboots
  exact ⟨by decide +kernel, hall.1 _ ⟨[.tick [web ⟨500, 1024⟩] 0], rfl⟩ 7,
    (hall.2 [.reconcileBoot [web ⟨500, 1024⟩]] _ List.prefix_rfl).2⟩

end Denia.Autoscale
