/-
  Denia.Autoscale.Conservation — the ledger's commitment against what was
  reserved for the replicas that are registered.

  A reservation is made from the limits of the launch, a release from the limits
  the catalog shows when the replica is drained, on five different paths.  The
  two agree only while nobody edits the limits of a service that has replicas.

  Main results: `step_keepsBooks`, one primitive step; `runOps_conserved`, if each drain is
  given the limits that were reserved; `runOps_not_conserved`.
-/
import Mathlib.Algebra.Order.BigOperators.Group.List
import Denia.Autoscale.Steps

namespace Denia.Autoscale

/-- The ledger's commitment is the sum, over the registered replicas, of the limits
reserved for each. -/
def Conserved (c : Controller) : Prop :=
  c.ledger.committedCpu = (c.registry.replicas.map (·.reserved.cpuMillis)).sum ∧
    c.ledger.committedMem = (c.registry.replicas.map (·.reserved.memoryBytes)).sum

/-- Every drain so far was given the limits that had been reserved for its replica. -/
def DrainsMatch (c : Controller) : Prop := ∀ d ∈ c.drains, d.reserved = some d.limits

/-- What holds between two states of one controller: the history grows, the
allocatable amounts stay, and if the drains match the books stay right. -/
structure KeepsBooks (c c' : Controller) : Prop where
  drains : c.drains <+: c'.drains
  allocatableCpu : c'.ledger.allocatableCpu = c.ledger.allocatableCpu
  allocatableMem : c'.ledger.allocatableMem = c.ledger.allocatableMem
  conserved : c.ledger.Unsaturated → DrainsMatch c' → Conserved c → Conserved c'

variable {c c' : Controller} {limits : ResourceLimits} {ledger : ResourceLedger}

theorem DrainsMatch.mono (h : DrainsMatch c') (hle : c.drains <+: c'.drains) :
    DrainsMatch c := fun d hd => h d (hle.subset hd)

theorem KeepsBooks.refl (c : Controller) : KeepsBooks c c :=
  ⟨List.prefix_rfl, rfl, rfl, fun _ _ h => h⟩

theorem KeepsBooks.trans {a b : Controller} (hab : KeepsBooks a b) (hbc : KeepsBooks b c) :
    KeepsBooks a c where
  drains := hab.drains.trans hbc.drains
  allocatableCpu := hbc.allocatableCpu.trans hab.allocatableCpu
  allocatableMem := hbc.allocatableMem.trans hab.allocatableMem
  conserved hsat hdrains ha := by
    have hsat' : b.ledger.Unsaturated := by
      rwa [ResourceLedger.Unsaturated, hab.allocatableCpu, hab.allocatableMem]
    exact hbc.conserved hsat' hdrains (hab.conserved hsat (hdrains.mono hbc.drains) ha)

/-! ## §1. The steps. -/

/-- A step that leaves the replicas, the ledger and the history alone. -/
theorem KeepsBooks.of_eq (hreg : c'.registry = c.registry) (hledger : c'.ledger = c.ledger)
    (hdrains : c'.drains = c.drains) : KeepsBooks c c' where
  drains := hdrains ▸ List.prefix_rfl
  allocatableCpu := hledger ▸ rfl
  allocatableMem := hledger ▸ rfl
  conserved _ _ h := by
    unfold Conserved at h ⊢
    rwa [hreg, hledger]

/-- A reservation that is given back. -/
theorem KeepsBooks.of_released (hreserve : c.ledger.tryReserve limits = some ledger)
    (hreg : c'.registry.replicas = c.registry.replicas)
    (hledger : c'.ledger = ledger.release limits) (hdrains : c'.drains = c.drains) :
    KeepsBooks c c' where
  drains := hdrains ▸ List.prefix_rfl
  allocatableCpu := hledger ▸ (ResourceLedger.tryReserve_allocatable hreserve).1
  allocatableMem := hledger ▸ (ResourceLedger.tryReserve_allocatable hreserve).2
  conserved hsat _ h := by
    obtain ⟨hcpu, hmem, -, -⟩ := ResourceLedger.tryReserve_spec hreserve hsat
    unfold Conserved at h ⊢
    rw [hreg, hledger, ← h.1, ← h.2]
    simp only [ResourceLedger.release]
    omega

/-- A reservation that is kept, with its replica registered in whatever state. -/
theorem KeepsBooks.of_reserved {serviceId deploymentId : Uuid} {index : Nat} {socket : String}
    {state : ReplicaState} (hreserve : c.ledger.tryReserve limits = some ledger)
    (hreg : c'.registry = (c.registry.add serviceId deploymentId index socket limits).1.setState
      c.registry.nextId state) (hledger : c'.ledger = ledger) (hdrains : c'.drains = c.drains) :
    KeepsBooks c c' where
  drains := hdrains ▸ List.prefix_rfl
  allocatableCpu := hledger ▸ (ResourceLedger.tryReserve_allocatable hreserve).1
  allocatableMem := hledger ▸ (ResourceLedger.tryReserve_allocatable hreserve).2
  conserved hsat _ h := by
    obtain ⟨hcpu, hmem, -, -⟩ := ResourceLedger.tryReserve_spec hreserve hsat
    -- `set_state` does not touch what was reserved
    have hmap : ∀ g : Replica → Nat, (∀ r : Replica, g { r with state := state } = g r) →
        (c'.registry.replicas.map g).sum = (c.registry.replicas.map g).sum +
          g (c.registry.fresh serviceId deploymentId index socket limits) := by
      intro g hg
      rw [hreg]
      show ((Lib.updateFirst _ _ (c.registry.replicas ++ [_])).map g).sum = _
      rw [Lib.map_updateFirst hg, List.map_append, List.sum_append]
      simp
    unfold Conserved at h ⊢
    rw [hmap _ fun _ => rfl, hmap _ fun _ => rfl, hledger, hcpu, hmem, h.1, h.2]
    exact ⟨rfl, rfl⟩

theorem launch_keepsBooks (env : Env) (spec : LaunchSpec) (c : Controller) :
    KeepsBooks c (c.launchReplica env spec).1 := by
  have hlaunched := launchReplica_launched env spec c
  generalize c.launchReplica env spec = result at hlaunched ⊢
  cases hlaunched with
  | denied => exact .refl c
  | notStarted hreserve => exact .of_released hreserve rfl rfl rfl
  | unhealthy hreserve => exact .of_released hreserve (c.registry.remove_add ..) rfl rfl
  | healthy hreserve => exact .of_reserved hreserve rfl rfl rfl

/-- Draining a registered replica takes its reservation out of the sum; the release
takes out the limits it is given. -/
theorem drain_keepsBooks (env : Env) (ms : ManagedService) {r : Replica}
    (hr : r ∈ c.registry.replicas) : KeepsBooks c (c.drainOf env ms r.id r.index) where
  drains := List.prefix_append _ _
  allocatableCpu := rfl
  allocatableMem := rfl
  conserved _ hdrains h := by
    have hfind : c.registry.replicas.find? (·.id == r.id) = some r := by
      cases hfind : c.registry.replicas.find? (·.id == r.id) with
      | none => exact absurd (beq_self_eq_true r.id) (List.find?_eq_none.mp hfind r hr)
      | some x =>
        have hid : x.id = r.id := by simpa using List.find?_some hfind
        rw [ReplicaRegistry.eq_of_id_eq (List.mem_of_find?_eq_some hfind) hr hid]
    -- the last record of the history is this drain
    have hlimits : r.reserved = ms.limits := by
      have hlast := hdrains ⟨r.id, ms.limits, some r.reserved⟩ (by
        refine List.mem_append_right _ ?_
        rw [hfind]
        exact List.mem_singleton_self _)
      injection hlast
    have hsum : ∀ g : Replica → Nat, (∀ x : Replica, g { x with state := .draining } = g x) →
        ((c.drainOf env ms r.id r.index).registry.replicas.map g).sum + g r
          = (c.registry.replicas.map g).sum := by
      intro g hg
      have hmem : { r with state := .draining } ∈
          (c.registry.setState r.id .draining).replicas :=
        mem_setState_self hr
      have h := ReplicaRegistry.sum_remove hmem g
      rw [hg] at h
      refine h.trans ?_
      show ((Lib.updateFirst _ _ c.registry.replicas).map g).sum = _
      rw [Lib.map_updateFirst hg]
    have hcpu := hsum (·.reserved.cpuMillis) fun _ => rfl
    have hmem := hsum (·.reserved.memoryBytes) fun _ => rfl
    simp only [hlimits] at hcpu hmem
    unfold Conserved at h ⊢
    show c.ledger.committedCpu - ms.limits.cpuMillis = _ ∧
      c.ledger.committedMem - ms.limits.memoryBytes = _
    omega

/-- **What every primitive step does to the books.** -/
theorem step_keepsBooks {env : Env} {P : ManagedService → Prop} (h : Step env P c c') :
    KeepsBooks c c' := by
  cases h with
  | launch => exact launch_keepsBooks env _ c
  | drain _ hr => exact drain_keepsBooks env _ (ReplicaRegistry.mem_replicasOf.mp hr).1
  | adopt _ _ _ hledger => exact .of_reserved hledger rfl rfl rfl
  | stop => exact .of_eq rfl rfl rfl
  | note => exact .of_eq rfl rfl rfl

/-! ## §2. Runs. -/

theorem runOps_keepsBooks (env : Env) (ops : List Op) (c : Controller) :
    KeepsBooks c (runOps env c ops) := by
  induction ops generalizing c with
  | nil => exact .refl c
  | cons op rest ih =>
    have hop : KeepsBooks c (op.run env c) :=
      Steps.rel KeepsBooks.refl KeepsBooks.trans step_keepsBooks
        (op.run_steps (fun _ _ => trivial) c : Steps env (fun _ => True) c _)
    exact hop.trans (ih _)

/-- **Ledger conservation.**  In a run in which every drain is given the limits that
were reserved for its replica, the commitment is, in every state between two
operations, the sum over the registered replicas of what was reserved for each. -/
theorem runOps_conserved {env : Env} {host : HostCapacity} {headroom : Headroom}
    {runtime : Runtime} {ingress : Pools} {desired : AList fun _ : Uuid => Nat}
    {ops done : List Op} (hdone : done <+: ops)
    (hsat : (ResourceLedger.new host headroom).Unsaturated)
    (hdrains : DrainsMatch (runOps env (.fresh host headroom runtime ingress desired) ops)) :
    let c := runOps env (.fresh host headroom runtime ingress desired) done
    Conserved c ∧
      (c.ledger.committedCpu ≤ c.ledger.allocatableCpu ∧
        c.ledger.committedMem ≤ c.ledger.allocatableMem) ∧
      (c.registry.replicas = [] → c.ledger.committedCpu = 0 ∧ c.ledger.committedMem = 0) := by
  obtain ⟨rest, rfl⟩ := hdone
  set start := Controller.fresh host headroom runtime ingress desired with hstart
  have hlater : KeepsBooks (runOps env start done) (runOps env start (done ++ rest)) := by
    have happ : runOps env start (done ++ rest) = runOps env (runOps env start done) rest :=
      List.foldl_append
    rw [happ]
    exact runOps_keepsBooks env rest _
  have hconserved : Conserved (runOps env start done) :=
    (runOps_keepsBooks env done start).conserved hsat (hdrains.mono hlater.drains) ⟨rfl, rfl⟩
  refine ⟨hconserved, ⟨ResourceLedger.cpu_le _, ResourceLedger.mem_le _⟩, fun hempty => ?_⟩
  rw [hconserved.1, hconserved.2, hempty]
  exact ⟨rfl, rfl⟩

/-! ## §3. One service, before and after an edit of its limits. -/

/-- The service `web` with one replica, at the limits of the argument. -/
def web (limits : ResourceLimits) : ManagedService where
  serviceName := "web"
  serviceId := 7
  deploymentId := 8
  policy := {
    minReplicas := 1, maxReplicas := 3, targetCpuPct := 80, targetMemPct := none,
    scaleDownCooldownS := 300, idleTimeoutS := 600,
    replica_bounds := by decide, target_percent := by decide, cooldown_le := by decide }
  artifact := "sha256:deadbeef"
  internalPort := 8080
  limits := limits
  env := []
  healthCheck := ⟨"/healthz", 5⟩

/-- An empty host. -/
def quietHost : Controller :=
  .fresh ⟨4000, 4294967296⟩ ⟨0, 0⟩ ⟨∅⟩ ⟨∅⟩ ∅

/-- **The defect.**  A replica is launched at 500 millicores, the service is edited to
200, and the service is stopped: 300 millicores stay committed for no replica. -/
theorem runOps_not_conserved :
    let c := runOps calmEnv quietHost
      [.tick [web ⟨500, 1024⟩] 0, .drainAll 7 (some (web ⟨200, 1024⟩))]
    c.registry.replicas = [] ∧ c.ledger.committedCpu = 300 ∧ ¬ Conserved c := by
  have hempty : (runOps calmEnv quietHost
      [.tick [web ⟨500, 1024⟩] 0, .drainAll 7 (some (web ⟨200, 1024⟩))]).registry.replicas
        = [] := by
    decide +kernel
  have hcpu : (runOps calmEnv quietHost
      [.tick [web ⟨500, 1024⟩] 0, .drainAll 7 (some (web ⟨200, 1024⟩))]).ledger.committedCpu
        = 300 := by
    decide +kernel
  refine ⟨hempty, hcpu, fun h => ?_⟩
  have hsum := h.1
  rw [hempty, hcpu] at hsum
  cases hsum

/-- Without the edit the same stop gives everything back. -/
theorem runOps_conserved_web :
    let c := runOps calmEnv quietHost
      [.tick [web ⟨500, 1024⟩] 0, .drainAll 7 (some (web ⟨500, 1024⟩))]
    Conserved c ∧
      (c.ledger.committedCpu ≤ c.ledger.allocatableCpu ∧
        c.ledger.committedMem ≤ c.ledger.allocatableMem) ∧
      (c.registry.replicas = [] → c.ledger.committedCpu = 0 ∧ c.ledger.committedMem = 0) := by
  refine runOps_conserved List.prefix_rfl ⟨by decide, by decide⟩ ?_
  unfold DrainsMatch
  decide +kernel

end Denia.Autoscale
