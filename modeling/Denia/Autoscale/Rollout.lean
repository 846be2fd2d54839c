/-
  Denia.Autoscale.Rollout — how many replicas stay up while a service is rolled over.

  A turn of a rollout replaces one replica of an older deployment.  With one replica it
  launches first; with several it DRAINS first, and a launch that fails afterwards is not
  made up for: the next turn drains again.  The states a turn passes through, one after each
  call that `launch_replica` and `drain_replica` make, are its `points`.

  Main results: `launchPoints_ge` and `drainPoints_ge`, the points of one call;
  `rollout_keeps_healthy`, if no turn finds replicas missing; `rollout_loses_two`.
-/
import Denia.Autoscale.Cooldown

namespace Denia.Autoscale

open Lib

/-! ## §1. The points of a turn. -/

/-- The states `launch_replica` passes through. -/
def launchPoints (env : Env) (spec : LaunchSpec) (c : Controller) : List Controller :=
  match c.reserve spec.limits with
  | none => [c]
  | some c1 =>
      match c1.runtimeStart env spec.request with
      | (c2, .error _) => [c, c1, c2, c2.release spec.limits]
      | (c2, .ok socket) =>
          let (c3, replicaId) := c2.register spec socket
          let c4 := c3.addEndpoint env spec.serviceId replicaId socket
          match c4.healthCheck env spec socket with
          | (c5, false) =>
              let stopped := c5.runtimeStop env ⟨spec.serviceId, spec.replicaIndex⟩
              [c, c1, c2, c3, c4, c5, stopped, stopped.release spec.limits,
                c5.rollback env spec replicaId]
          | (c5, true) =>
              [c, c1, c2, c3, c4, c5, c5.mark spec.serviceId replicaId .healthy true]

/-- The states `drain_replica` passes through. -/
def drainPoints (env : Env) (ms : ManagedService) (replicaId : Uuid) (index : Nat)
    (c : Controller) : List Controller :=
  let marked := c.mark ms.serviceId replicaId .draining false
  let stopped := marked.runtimeStop env ⟨ms.serviceId, index⟩
  [c, marked, stopped, stopped.release ms.limits, c.drainOf env ms replicaId index]

/-- Those of launches up to a count. -/
def launchUpToPoints (env : Env) (ms : ManagedService) : Nat → Controller → List Controller
  | 0, c => [c]
  | n + 1, c =>
      let spec := launchSpec ms (c.nextReplicaIndex ms.serviceId)
      launchPoints env spec c ++
        match c.launchReplica env spec with
        | (c, .ok _) => launchUpToPoints env ms n c
        | (_, .error _) => []

/-- Those of drains down to a count. -/
def drainDownPoints (env : Env) (ms : ManagedService) : Nat → Controller → List Controller
  | 0, c => [c]
  | n + 1, c =>
      match maxByIndex (c.registry.replicasOf ms.serviceId) with
      | none => [c]
      | some r =>
          drainPoints env ms r.id r.index c ++
            drainDownPoints env ms n (c.drainOf env ms r.id r.index)

/-- Those of a drain of each replica. -/
def drainEachPoints (env : Env) (ms : ManagedService) :
    List (Uuid × Nat) → Controller → List Controller
  | [], c => [c]
  | (replicaId, index) :: rest, c =>
      drainPoints env ms replicaId index c ++
        drainEachPoints env ms rest (c.drainOf env ms replicaId index)

/-- Those of one replacement. -/
def rolloutPoints (env : Env) (ms : ManagedService) (old : Replica) (c : Controller) :
    List Controller :=
  let spec := launchSpec ms (c.nextReplicaIndex ms.serviceId)
  if c.registry.replicaCount ms.serviceId ≤ 1 then
    launchPoints env spec c ++
      match c.launchReplica env spec with
      | (c, .ok _) => drainPoints env ms old.id old.index c
      | (_, .error _) => []
  else
    drainPoints env ms old.id old.index c ++
      launchPoints env spec (c.drainOf env ms old.id old.index)

/-- The states a turn passes through, from the one it starts in to the one it leaves. -/
def Turn.points (env : Env) (t : Turn) : List Controller :=
  let replicas := t.before.registry.replicasOf t.ms.serviceId
  let within : List Controller :=
    match replicas.find? (·.deploymentId ≠ t.ms.deploymentId) with
    | some old => rolloutPoints env t.ms old t.before
    | none =>
        match t.before.tickDecision env t.ms t.nowS t.count with
        | (c, .hold _) => [c]
        | (c, .scaleToZero) =>
            drainEachPoints env t.ms (replicas.map fun r => (r.id, r.index)) c
        | (c, .reconcile desired) =>
            let (launched, n, _) := c.launchUpTo env t.ms (desired - t.count)
            launchUpToPoints env t.ms (desired - t.count) c ++
              drainDownPoints env t.ms (t.count + n - desired) launched
  t.before :: within ++ [t.after env]

variable {env : Env} {c p : Controller} {spec : LaunchSpec} {ms : ManagedService} {serviceId : Uuid}
  {old : Replica}

/-! ## §2. A launch and a drain, point by point. -/

section
/-- At every point of a launch the replicas are those before it, and maybe the new one. -/
theorem launchPoints_replicas (hp : p ∈ launchPoints env spec c) :
    ∃ added, p.registry.replicas = c.registry.replicas ++ added := by
  have hsame : ∀ {q : Controller}, q.registry.replicas = c.registry.replicas →
      ∃ added, q.registry.replicas = c.registry.replicas ++ added :=
    fun hq => ⟨[], by rw [hq, List.append_nil]⟩
  unfold launchPoints Controller.reserve at hp
  -- only `register` and the rollback change the list
  cases hreserve : c.ledger.tryReserve spec.limits with
  | none =>
    rw [hreserve] at hp
    rw [List.mem_singleton.mp hp]
    exact hsame rfl
  | some =>
    rw [hreserve] at hp
    simp only [Option.map_some, Controller.runtimeStart] at hp
    cases hstart : env.start c.calls spec.request with
    | error =>
      rw [hstart] at hp
      simp only [List.mem_cons, List.not_mem_nil, or_false] at hp
      rcases hp with rfl | rfl | rfl | rfl <;> exact hsame rfl
    | ok socket =>
      rw [hstart] at hp
      simp only [Controller.register, Controller.addEndpoint, Controller.healthCheck] at hp
      cases hhealth : env.health (c.calls + 1 + 1) socket spec.healthCheck with
      | false =>
        rw [hhealth] at hp
        simp only [List.mem_cons, List.not_mem_nil, or_false] at hp
        rcases hp with rfl | rfl | rfl | rfl | rfl | rfl | rfl | rfl | rfl
        · exact hsame rfl
        · exact hsame rfl
        · exact hsame rfl
        · exact ⟨_, rfl⟩
        · exact ⟨_, rfl⟩
        · exact ⟨_, rfl⟩
        · exact ⟨_, rfl⟩
        · exact ⟨_, rfl⟩
        · exact hsame (c.registry.remove_add spec.serviceId spec.deploymentId
            spec.replicaIndex socket spec.limits)
      | true =>
        rw [hhealth] at hp
        simp only [List.mem_cons, List.not_mem_nil, or_false] at hp
        rcases hp with rfl | rfl | rfl | rfl | rfl | rfl | rfl
        · exact hsame rfl
        · exact hsame rfl
        · exact hsame rfl
        · exact ⟨_, rfl⟩
        · exact ⟨_, rfl⟩
        · exact ⟨_, rfl⟩
        · exact ⟨_, c.registry.replicas_add_setState spec.serviceId spec.deploymentId
            spec.replicaIndex socket spec.limits .healthy⟩

/-- The states before a launch and after it are among its points. -/
theorem launch_mem_points (env : Env) (spec : LaunchSpec) (c : Controller) :
    c ∈ launchPoints env spec c ∧ (c.launchReplica env spec).1 ∈ launchPoints env spec c := by
  unfold Controller.launchReplica launchPoints
  cases c.reserve spec.limits with
  | none => exact ⟨List.mem_singleton_self c, List.mem_singleton_self c⟩
  | some c1 =>
    simp only
    generalize c1.runtimeStart env spec.request = started
    obtain ⟨c2, answer⟩ := started
    cases answer with
    | error => simp
    | ok socket =>
      simp only
      generalize Controller.healthCheck env spec socket _ = checked
      obtain ⟨c5, healthy⟩ := checked
      cases healthy <;> simp

/-- **At every point of a launch** as many replicas are Healthy as before it. -/
theorem launchPoints_ge (hp : p ∈ launchPoints env spec c) (serviceId : Uuid) :
    c.registry.healthyCount serviceId ≤ p.registry.healthyCount serviceId := by
  obtain ⟨added, hadded⟩ := launchPoints_replicas hp
  unfold ReplicaRegistry.healthyCount ReplicaRegistry.replicasOf
  rw [hadded, List.filter_append, List.filter_append, List.length_append]
  exact Nat.le_add_right _ _

variable {replicaId : Uuid} {index : Nat}

/-- At every point of a drain the OTHER replicas are as they were. -/
theorem drainPoints_rest (hp : p ∈ drainPoints env ms replicaId index c) (serviceId : Uuid) :
    (p.registry.replicasOf serviceId).filter (·.id ≠ replicaId)
      = (c.registry.replicasOf serviceId).filter (·.id ≠ replicaId) := by
  have hmarked : ((c.registry.setState replicaId .draining).replicasOf serviceId).filter
      (·.id ≠ replicaId) = (c.registry.replicasOf serviceId).filter (·.id ≠ replicaId) := by
    unfold ReplicaRegistry.replicasOf
    rw [List.filter_comm, List.filter_comm (l := c.registry.replicas)]
    refine congrArg (List.filter _) (filter_updateFirst fun r hr => ?_)
    have hid : r.id = replicaId := by simpa using List.find?_some hr
    simp [hid]
  unfold drainPoints at hp
  simp only [List.mem_cons, List.not_mem_nil, or_false] at hp
  rcases hp with rfl | rfl | rfl | rfl | rfl
  · rfl
  · exact hmarked
  · exact hmarked
  · exact hmarked
  · rw [replicasOf_drainOf, List.filter_filter]
    simp

theorem drainOf_mem_points (env : Env) (ms : ManagedService) (replicaId : Uuid) (index : Nat)
    (c : Controller) : c.drainOf env ms replicaId index ∈ drainPoints env ms replicaId index c := by
  simp [drainPoints]

/-- **At every point of a drain** the other Healthy replicas still are. -/
theorem drainPoints_ge (hp : p ∈ drainPoints env ms replicaId index c) (serviceId : Uuid) :
    (((c.registry.replicasOf serviceId).filter (·.id ≠ replicaId)).filter
      (·.state = .healthy)).length ≤ p.registry.healthyCount serviceId := by
  rw [← drainPoints_rest hp serviceId]
  exact (List.filter_sublist.filter _).length_le

/-- A drain of another service's replica. -/
theorem drainPoints_other (hother : ∀ x ∈ c.registry.replicasOf serviceId, x.id ≠ replicaId)
    (hp : p ∈ drainPoints env ms replicaId index c) :
    c.registry.healthyCount serviceId ≤ p.registry.healthyCount serviceId := by
  have hge := drainPoints_ge hp serviceId
  have hall : (c.registry.replicasOf serviceId).filter (·.id ≠ replicaId)
      = c.registry.replicasOf serviceId :=
    List.filter_eq_self.mpr fun x hx => by simpa using hother x hx
  rwa [hall] at hge

/-- With all replicas Healthy, a drain leaves all but one at every point. -/
theorem drainPoints_allHealthy (hall : AllHealthy c)
    (hold : old ∈ c.registry.replicasOf ms.serviceId)
    (hp : p ∈ drainPoints env ms old.id old.index c) :
    c.registry.replicaCount ms.serviceId ≤ p.registry.healthyCount ms.serviceId + 1 := by
  have hge := drainPoints_ge hp ms.serviceId
  have hcount := replicaCount_drainOf env hold
  have hfilter : ((c.registry.replicasOf ms.serviceId).filter (·.id ≠ old.id)).filter
      (·.state = .healthy) = (c.registry.replicasOf ms.serviceId).filter (·.id ≠ old.id) := by
    refine List.filter_eq_self.mpr fun x hx => ?_
    have hx := (ReplicaRegistry.mem_replicasOf.mp (List.mem_of_mem_filter hx)).1
    simpa using hall x hx
  rw [hfilter] at hge
  have hlength : (c.drainOf env ms old.id old.index).registry.replicaCount ms.serviceId
      = ((c.registry.replicasOf ms.serviceId).filter (·.id ≠ old.id)).length :=
    congrArg List.length (replicasOf_drainOf old.id old.index ms.serviceId)
  omega

/-- All replicas are Healthy, so the two counts are one. -/
theorem AllHealthy.healthyCount (h : AllHealthy c) (serviceId : Uuid) :
    c.registry.healthyCount serviceId = c.registry.replicaCount serviceId := by
  unfold ReplicaRegistry.healthyCount ReplicaRegistry.replicaCount
  refine congrArg List.length (List.filter_eq_self.mpr fun r hr => ?_)
  simpa using h r (ReplicaRegistry.mem_replicasOf.mp hr).1

end

variable {t : Turn}

/-! ## §3. The turns of other services. -/
theorem launchUpToPoints_ge (n : Nat) (c : Controller) : ∀ p ∈ launchUpToPoints env ms n c,
      c.registry.healthyCount serviceId ≤ p.registry.healthyCount serviceId := by
  induction n generalizing c with
  | zero =>
    intro p hp
    rw [List.mem_singleton.mp hp]
  | succ n ih =>
    intro p hp
    rcases List.mem_append.mp hp with hp | hp
    · exact launchPoints_ge hp serviceId
    · have hmem := (launch_mem_points env
        (launchSpec ms (c.nextReplicaIndex ms.serviceId)) c).2
      split at hp
      next c' _ hlaunch =>
        rw [hlaunch] at hmem
        exact (launchPoints_ge hmem serviceId).trans (ih c' p hp)
      next => cases hp

/-- A registered replica of one service has no id of another's. -/
theorem id_ne_of_service {r x : Replica} (hne : ms.serviceId ≠ serviceId)
    (hr : r ∈ c.registry.replicasOf ms.serviceId) (hx : x ∈ c.registry.replicasOf serviceId) :
    x.id ≠ r.id := by
  obtain ⟨hr, hrs⟩ := ReplicaRegistry.mem_replicasOf.mp hr
  obtain ⟨hx, hxs⟩ := ReplicaRegistry.mem_replicasOf.mp hx
  intro hid
  rw [ReplicaRegistry.eq_of_id_eq hx hr hid] at hxs
  exact hne (hrs.symm.trans hxs)

theorem drainDownPoints_other (hne : ms.serviceId ≠ serviceId) (n : Nat) (c : Controller) :
    ∀ p ∈ drainDownPoints env ms n c,
      c.registry.healthyCount serviceId ≤ p.registry.healthyCount serviceId := by
  induction n generalizing c with
  | zero =>
    intro p hp
    rw [List.mem_singleton.mp hp]
  | succ n ih =>
    intro p hp
    unfold drainDownPoints at hp
    split at hp
    next => rw [List.mem_singleton.mp hp]
    next r hr =>
      have hother : ∀ x ∈ c.registry.replicasOf serviceId, x.id ≠ r.id :=
        fun x hx => id_ne_of_service hne (maxByIndex_mem hr) hx
      rcases List.mem_append.mp hp with hp | hp
      · exact drainPoints_other hother hp
      · exact (drainPoints_other hother (drainOf_mem_points env ms r.id r.index c)).trans
          (ih _ p hp)

theorem drainEachPoints_other (l : List (Uuid × Nat)) (c : Controller)
    (hother : ∀ e ∈ l, ∀ x ∈ c.registry.replicasOf serviceId, x.id ≠ e.1) :
    ∀ p ∈ drainEachPoints env ms l c,
      c.registry.healthyCount serviceId ≤ p.registry.healthyCount serviceId := by
  induction l generalizing c with
  | nil =>
    intro p hp
    rw [List.mem_singleton.mp hp]
  | cons e rest ih =>
    obtain ⟨replicaId, index⟩ := e
    intro p hp
    have hhead := hother (replicaId, index) List.mem_cons_self
    rcases List.mem_append.mp hp with hp | hp
    · exact drainPoints_other hhead hp
    · refine (drainPoints_other hhead (drainOf_mem_points env ms replicaId index c)).trans
        (ih _ ?_ p hp)
      intro e he x hx
      rw [replicasOf_drainOf] at hx
      exact hother e (List.mem_cons_of_mem _ he) x (List.mem_of_mem_filter hx)

theorem rolloutPoints_other (hne : ms.serviceId ≠ serviceId)
    (hold : old ∈ c.registry.replicasOf ms.serviceId) : ∀ p ∈ rolloutPoints env ms old c,
      c.registry.healthyCount serviceId ≤ p.registry.healthyCount serviceId := by
  intro p hp
  unfold rolloutPoints at hp
  simp only at hp
  set spec := launchSpec ms (c.nextReplicaIndex ms.serviceId) with hspec
  split at hp
  · rcases List.mem_append.mp hp with hp | hp
    · exact launchPoints_ge hp serviceId
    · have hmem := (launch_mem_points env spec c).2
      obtain ⟨hreg, hservice⟩ := ReplicaRegistry.mem_replicasOf.mp hold
      have hkept : old ∈ (c.launchReplica env spec).1.registry.replicas := mem_launchReplica hreg
      split at hp
      next c' _ hlaunch =>
        rw [hlaunch] at hmem hkept
        have hkept : old ∈ c'.registry.replicasOf ms.serviceId :=
          ReplicaRegistry.mem_replicasOf.mpr ⟨hkept, hservice⟩
        exact (launchPoints_ge hmem serviceId).trans
          (drainPoints_other (fun x hx => id_ne_of_service hne hkept hx) hp)
      next => cases hp
  · have hother : ∀ x ∈ c.registry.replicasOf serviceId, x.id ≠ old.id :=
      fun x hx => id_ne_of_service hne hold hx
    rcases List.mem_append.mp hp with hp | hp
    · exact drainPoints_other hother hp
    · exact (drainPoints_other hother (drainOf_mem_points env ms old.id old.index c)).trans
        (launchPoints_ge hp serviceId)

/-- **A turn of another service** leaves the Healthy replicas alone at every point. -/
theorem points_other (hne : t.ms.serviceId ≠ serviceId) : ∀ p ∈ t.points env,
      t.before.registry.healthyCount serviceId ≤ p.registry.healthyCount serviceId := by
  have hsame : ∀ {c : Controller}, Untouched serviceId t.before c →
      t.before.registry.healthyCount serviceId ≤ c.registry.healthyCount serviceId := by
    intro c h
    unfold ReplicaRegistry.healthyCount
    rw [h.replicas]
  have hdecision : Untouched serviceId t.before
      (t.before.tickDecision env t.ms t.nowS t.count).1 :=
    tickDecision_step (untouched_rules env serviceId) hne _ _ _
  intro p hp
  unfold Turn.points at hp
  simp only at hp
  -- during the turn, and where it ends
  rcases List.mem_append.mp hp with hp | hp
  · rcases List.mem_cons.mp hp with rfl | hp
    · exact Nat.le_refl _
    · split at hp
      next old hold => exact rolloutPoints_other hne (List.mem_of_find?_eq_some hold) p hp
      next =>
        split at hp
        next c _ h =>
          rw [h] at hdecision
          rw [List.mem_singleton.mp hp]
          exact hsame hdecision
        next c h =>
          rw [h] at hdecision
          refine (hsame hdecision).trans (drainEachPoints_other _ c ?_ p hp)
          intro e he x hx
          obtain ⟨r, hr, rfl⟩ := List.mem_map.mp he
          rw [show c.registry.replicasOf serviceId = _ from hdecision.replicas] at hx
          exact id_ne_of_service hne hr hx
        next c desired h =>
          rw [h] at hdecision
          have hloops := (untouched_rules env serviceId).toLoopRules
          have hlaunched : Untouched serviceId c (c.launchUpTo env t.ms (desired - t.count)).1 :=
            .of_steps (launchUpTo_steps hloops hne _ c)
          rcases List.mem_append.mp hp with hp | hp
          · exact (hsame hdecision).trans (launchUpToPoints_ge _ c p hp)
          · exact (hsame (hdecision.trans hlaunched)).trans (drainDownPoints_other hne _ _ p hp)
  · rw [List.mem_singleton.mp hp]
    exact hsame (tickService_untouched env hne t.nowS t.before)

/-! ## §4. The turns of the rollout. -/

/-- A turn of a rollout of `n` replicas that may drain one: an older replica is left to
replace, and unless the service is down to one replica none of the `n` is missing. -/
def Turn.Rolls (n : Nat) (t : Turn) : Prop :=
  (∃ r ∈ t.before.registry.replicasOf t.ms.serviceId, r.deploymentId ≠ t.ms.deploymentId) ∧
    (t.count ≤ 1 ∨ n ≤ t.count)

instance (n : Nat) (t : Turn) : Decidable (t.Rolls n) := inferInstanceAs (Decidable (_ ∧ _))

variable {n : Nat}

/-- **One replacement**, point by point. -/
theorem rolloutPoints_ge (hall : AllHealthy c) (hold : old ∈ c.registry.replicasOf ms.serviceId)
    (henough : max 1 (n - 1) ≤ c.registry.replicaCount ms.serviceId)
    (hfull : c.registry.replicaCount ms.serviceId ≤ 1 ∨
      n ≤ c.registry.replicaCount ms.serviceId) :
    ∀ p ∈ rolloutPoints env ms old c, max 1 (n - 1) ≤ p.registry.healthyCount ms.serviceId := by
  intro p hp
  have hcount := hall.healthyCount ms.serviceId
  unfold rolloutPoints at hp
  simp only at hp
  set spec := launchSpec ms (c.nextReplicaIndex ms.serviceId) with hspec
  split at hp
  · -- launch, then drain: one more is up before one goes
    rcases List.mem_append.mp hp with hp | hp
    · have hge := launchPoints_ge hp ms.serviceId
      omega
    · obtain ⟨hreg, hservice⟩ := ReplicaRegistry.mem_replicasOf.mp hold
      have hkept : old ∈ (c.launchReplica env spec).1.registry.replicas := mem_launchReplica hreg
      have hlaunch : Step env (fun _ => True) c (c.launchReplica env spec).1 :=
        .launch trivial fun _ hr => index_lt_nextReplicaIndex hr
      have hhealthy := step_allHealthy hlaunch hall
      split at hp
      next c' _ heq =>
        rw [heq] at hkept hhealthy
        obtain ⟨r, -, -, hadd⟩ := replicasOf_launch_ok heq
        have hmore : c'.registry.replicaCount ms.serviceId
            = c.registry.replicaCount ms.serviceId + 1 := by
          show (c'.registry.replicasOf ms.serviceId).length = _
          rw [hadd, List.length_append]
          rfl
        have hge : c'.registry.replicaCount ms.serviceId
            ≤ p.registry.healthyCount ms.serviceId + 1 :=
          drainPoints_allHealthy hhealthy
            (ReplicaRegistry.mem_replicasOf.mpr ⟨hkept, hservice⟩) hp
        omega
      next => cases hp
  · -- drain, then launch: one is missing until the launch succeeds
    have hdrained := drainPoints_allHealthy hall hold
      (drainOf_mem_points env ms old.id old.index c)
    rcases List.mem_append.mp hp with hp | hp
    · have hge := drainPoints_allHealthy hall hold hp
      omega
    · have hge := launchPoints_ge hp ms.serviceId
      omega

/-- The registry a replacement leaves is that of one of its points. -/
theorem rolloutStep_mem_points (env : Env) (ms : ManagedService) (old : Replica) (c : Controller) :
    ∃ q ∈ rolloutPoints env ms old c, (c.rolloutStep env ms old).1.registry = q.registry := by
  unfold rolloutPoints Controller.rolloutStep
  simp only
  set spec := launchSpec ms (c.nextReplicaIndex ms.serviceId) with hspec
  have hlaunch := (launch_mem_points env spec c).2
  have hthen := (launch_mem_points env spec (c.drainOf env ms old.id old.index)).2
  split
  · generalize c.launchReplica env spec = launched at hlaunch ⊢
    obtain ⟨c', answer⟩ := launched
    cases answer with
    | ok =>
      exact ⟨_, List.mem_append_right _ (drainOf_mem_points env ms old.id old.index c'), rfl⟩
    | error => exact ⟨c', List.mem_append_left _ hlaunch, rfl⟩
  · generalize (c.drainOf env ms old.id old.index).launchReplica env spec = launched at hthen ⊢
    obtain ⟨c', answer⟩ := launched
    cases answer <;> exact ⟨c', List.mem_append_right _ hthen, rfl⟩

theorem before_mem_rolloutPoints (env : Env) (ms : ManagedService) (old : Replica)
    (c : Controller) : c ∈ rolloutPoints env ms old c := by
  unfold rolloutPoints
  simp only
  split
  · exact List.mem_append_left _ (launch_mem_points env _ c).1
  · exact List.mem_append_left _ List.mem_cons_self

/-- The points of a turn of the rollout are those of its replacement. -/
theorem mem_points_rollout (hfind : (t.before.registry.replicasOf t.ms.serviceId).find?
      (·.deploymentId ≠ t.ms.deploymentId) = some old) (hp : p ∈ t.points env) :
    ∃ q ∈ rolloutPoints env t.ms old t.before, p.registry = q.registry := by
  unfold Turn.points at hp
  simp only [hfind] at hp
  rcases List.mem_append.mp hp with hp | hp
  · rcases List.mem_cons.mp hp with rfl | hp
    · exact ⟨_, before_mem_rolloutPoints env t.ms old t.before, rfl⟩
    · exact ⟨p, hp, rfl⟩
  · obtain ⟨q, hq, hreg⟩ := rolloutStep_mem_points env t.ms old t.before
    refine ⟨q, hq, ?_⟩
    rw [List.mem_singleton.mp hp, ← hreg]
    unfold Turn.after Controller.tickService
    simp only [hfind]

/-- **A turn of the rollout**, point by point. -/
theorem points_rollout (hall : AllHealthy t.before) (henough : max 1 (n - 1) ≤ t.count)
    (hrolls : t.Rolls n) :
    ∀ p ∈ t.points env, max 1 (n - 1) ≤ p.registry.healthyCount t.ms.serviceId := by
  obtain ⟨⟨r, hr, hne⟩, hfull⟩ := hrolls
  cases hfind : (t.before.registry.replicasOf t.ms.serviceId).find?
      (·.deploymentId ≠ t.ms.deploymentId) with
  | none => exact absurd (by simpa using hne) (List.find?_eq_none.mp hfind r hr)
  | some old =>
    intro p hp
    obtain ⟨q, hq, hreg⟩ := mem_points_rollout hfind hp
    rw [hreg]
    exact rolloutPoints_ge hall (List.mem_of_find?_eq_some hfind) henough hfull q hq

/-! ## §5. Runs. -/

/-- The ticks of a run, with the services and the time of each. -/
def ticksOf (ticks : List (List ManagedService × Nat)) : List Op :=
  ticks.map fun tick => .tick tick.1 tick.2

/-- Between two turns all replicas are Healthy, and at most one of `n` is missing. -/
def Covered (serviceId : Uuid) (n : Nat) (_past : List Turn) (c : Controller) : Prop :=
  AllHealthy c ∧ max 1 (n - 1) ≤ c.registry.replicaCount serviceId

section
variable {past : List Turn}

theorem covered_points (hinv : Covered serviceId n past t.before)
    (hrolls : t.ms.serviceId = serviceId → t.Rolls n) :
    ∀ p ∈ t.points env, max 1 (n - 1) ≤ p.registry.healthyCount serviceId := by
  obtain ⟨hall, henough⟩ := hinv
  intro p hp
  by_cases hservice : t.ms.serviceId = serviceId
  · subst hservice
    exact points_rollout hall henough (hrolls rfl) p hp
  · have hge := points_other hservice p hp
    rw [hall.healthyCount serviceId] at hge
    exact henough.trans hge

theorem covered_turn (hinv : Covered serviceId n past t.before)
    (hrolls : t.ms.serviceId = serviceId → t.Rolls n) :
    Covered serviceId n (past ++ [t]) (t.after env) := by
  have hsteps : Steps env (fun _ => True) t.before (t.after env) :=
    tickService_steps (Step.rules env _).toTurnRules trivial _ _
  have hall := steps_allHealthy hsteps hinv.1
  have hlast : t.after env ∈ t.points env := by
    unfold Turn.points
    exact List.mem_append_right _ (List.mem_singleton_self _)
  refine ⟨hall, ?_⟩
  rw [← hall.healthyCount serviceId]
  exact covered_points hinv hrolls _ hlast

end

/-- **A rollout keeps all but one of the replicas**, and at least one, Healthy at every
point of a run of ticks whose turns of the service all may drain one. -/
theorem rollout_keeps_healthy (env : Env) (host : HostCapacity) (headroom : Headroom)
    (runtime : Runtime) (ingress : Pools) (desired : AList fun _ : Uuid => Nat)
    (history : List Op) (ticks : List (List ManagedService × Nat)) (serviceId : Uuid)
    (hsome : 1 ≤ (runOps env (.fresh host headroom runtime ingress desired)
      history).registry.replicaCount serviceId) :
    let c := runOps env (.fresh host headroom runtime ingress desired) history
    let n := c.registry.replicaCount serviceId
    (∀ t ∈ runTurns env c (ticksOf ticks), t.ms.serviceId = serviceId → t.Rolls n) →
      ∀ t ∈ runTurns env c (ticksOf ticks), ∀ p ∈ t.points env,
        max 1 (n - 1) ≤ p.registry.healthyCount serviceId := by
  intro c n hrolls
  have hfresh : AllHealthy (Controller.fresh host headroom runtime ingress desired) := by
    intro r hr
    cases hr
  have hsome : 1 ≤ n := hsome
  have hstart : Covered serviceId n [] c := by
    refine ⟨runOps_allHealthy hfresh history, ?_⟩
    show max 1 (n - 1) ≤ n
    omega
  have hticks : ∀ op ∈ ticksOf ticks, op.isTick = true := by
    intro op hop
    obtain ⟨tick, -, rfl⟩ := List.mem_map.mp hop
    rfl
  have hother : ∀ past c (op : Op), op.isTick = true → op.isTick = false →
      Covered serviceId n past c → Covered serviceId n past (op.run env c) := by
    intro past c op htick hnot
    simp [htick] at hnot
  have hrun := (runTurns_invariant (fun _ _ => covered_turn) (fun _ _ _ h => h) hother
    (ticksOf ticks) hticks [] c hstart hrolls).2
  intro t ht
  obtain ⟨earlier, later, heq⟩ := List.append_of_mem ht
  exact covered_points (hrun earlier t later heq) (hrolls t ht)

/-! ## §6. Three replicas, and launches that fail. -/

/-- A host on which no workload starts from call `n` on. -/
def haltEnv (n : Nat) : Env :=
  { calmEnv with
    start := fun call request =>
      if call < n then calmEnv.start call request else .error "spawn failed" }

/-- `web` with a newer deployment. -/
def newerWeb (replicas : Nat) (h : 1 ≤ replicas ∧ replicas ≤ replicas) : ManagedService :=
  { boundedWeb replicas replicas h with deploymentId := 9 }

/-- **The defect.**  A service with three replicas is rolled over while no workload starts:
each tick drains one and replaces none, and after two ticks one of three is left. -/
theorem rollout_loses_two :
    let env := haltEnv trio.calls
    let c := runOps env quietHost [.tick [boundedWeb 3 3 (by decide)] 0]
    let ticks := ticksOf [([newerWeb 3 (by decide)], 10), ([newerWeb 3 (by decide)], 20)]
    c.registry.replicaCount 7 = 3 ∧
      (∀ r ∈ c.registry.replicasOf 7, r.deploymentId = 8 ∧ r.state = .healthy) ∧
      ∃ t ∈ runTurns env c ticks, ∃ p ∈ t.points env, p.registry.healthyCount 7 = 1 := by
  refine ⟨by decide +kernel, by decide +kernel, ?_⟩
  decide +kernel

/-- With two replicas the second tick launches before it drains: though no workload starts,
one replica stays up. -/
theorem rollout_keeps_healthy_pair :
    let env := haltEnv 7
    let c := runOps env quietHost [.tick [boundedWeb 2 2 (by decide)] 0]
    let ticks := ticksOf [([newerWeb 2 (by decide)], 10), ([newerWeb 2 (by decide)], 20)]
    ∀ t ∈ runTurns env c ticks, ∀ p ∈ t.points env,
      max 1 (c.registry.replicaCount 7 - 1) ≤ p.registry.healthyCount 7 :=
  rollout_keeps_healthy (haltEnv 7) ⟨4000, 4294967296⟩ ⟨0, 0⟩ ⟨∅⟩ ⟨∅⟩ ∅
    [.tick [boundedWeb 2 2 (by decide)] 0]
    [([newerWeb 2 (by decide)], 10), ([newerWeb 2 (by decide)], 20)] 7 (by decide +kernel)
    (by decide +kernel)

end Denia.Autoscale
