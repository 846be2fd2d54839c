/-
  Denia.Autoscale.RolloutProgress — a rollout whose launches succeed moves on by ONE REPLICA
  per tick.

  A turn takes the first replica of an older deployment out of the registry and puts one of
  the target deployment in, in whichever order (`Replaced`).  That some replica is Healthy all
  along needs one to begin with: an activation cut by its timeout leaves a PENDING replica, and
  until its replacement is up the service has none.

  Main results: `rolloutStep_replaced` and `points_keepsOne_iff`, one turn;
  `rollout_completes_in_order`, tick by tick; `rollout_of_pending`.
-/
import Denia.Autoscale.Cancellation
import Denia.Autoscale.Rollout
import Mathlib.Data.Nat.Cast.Basic

namespace Denia.Autoscale

open Lib

variable {target serviceId : Uuid} {l l' start : List Replica} {old : Replica} {env : Env}
  {c : Controller} {t : Turn} {past : List Turn} {ticks : List (List ManagedService × Nat)}

/-! ## §1. A replacement. -/

/-- The first replica of an older deployment has gone, and one of the target deployment has
come. -/
def Replaced (target : Uuid) (l l' : List Replica) : Prop :=
  ∃ old r : Replica, l.find? (·.deploymentId ≠ target) = some old ∧ r.deploymentId = target ∧
    r.state = .healthy ∧ l' = l.filter (·.id ≠ old.id) ++ [r]

/-- The replicas of older deployments. -/
def olderCount (target : Uuid) (l : List Replica) : Nat :=
  (l.filter (·.deploymentId ≠ target)).length

/-- Some replica runs the target deployment, and is Healthy. -/
def HasCurrent (target : Uuid) (l : List Replica) : Prop :=
  ∃ r ∈ l, r.deploymentId = target ∧ r.state = .healthy

theorem length_filter_id_ne (hnodup : (l.map (·.id)).Nodup) {r : Replica} (hr : r ∈ l) :
    (l.filter (·.id ≠ r.id)).length + 1 = l.length := by
  simpa using ReplicaRegistry.sum_filter_id_ne hnodup hr fun _ => 1

theorem Replaced.length (hnodup : (l.map (·.id)).Nodup) (h : Replaced target l l') :
    l'.length = l.length := by
  obtain ⟨old, r, hfind, -, -, rfl⟩ := h
  rw [List.length_append]
  exact length_filter_id_ne hnodup (List.mem_of_find?_eq_some hfind)

theorem Replaced.olderCount (hnodup : (l.map (·.id)).Nodup) (h : Replaced target l l') :
    olderCount target l' + 1 = olderCount target l := by
  obtain ⟨old, r, hfind, hr, -, rfl⟩ := h
  have hold : old ∈ l.filter (·.deploymentId ≠ target) :=
    List.mem_filter.mpr ⟨List.mem_of_find?_eq_some hfind, by simpa using List.find?_some hfind⟩
  unfold Denia.Autoscale.olderCount
  rw [List.filter_append, List.filter_cons_of_neg (by simpa using hr), List.filter_nil,
    List.append_nil, List.filter_comm]
  exact length_filter_id_ne (hnodup.sublist (List.filter_sublist.map _)) hold

theorem Replaced.hasCurrent (h : Replaced target l l') : HasCurrent target l' := by
  obtain ⟨old, r, -, hr, hstate, rfl⟩ := h
  exact ⟨r, List.mem_append_right _ (List.mem_singleton_self r), hr, hstate⟩

theorem exists_old (h : 1 ≤ olderCount target l) :
    ∃ old, l.find? (·.deploymentId ≠ target) = some old := by
  obtain ⟨r, hr⟩ := List.exists_mem_of_length_pos h
  obtain ⟨hmem, hr⟩ := List.mem_filter.mp hr
  exact Option.isSome_iff_exists.mp (List.find?_isSome.mpr ⟨r, hmem, hr⟩)

/-! ## §2. A turn whose launch succeeds. -/

namespace Turn

/-- The launch that a turn of a rollout makes has failed. -/
def launchFailed (env : Env) (t : Turn) : Bool :=
  match (t.before.registry.replicasOf t.ms.serviceId).find?
      (·.deploymentId ≠ t.ms.deploymentId) with
  | none => false
  | some old =>
      let spec := launchSpec t.ms (t.before.nextReplicaIndex t.ms.serviceId)
      let answer :=
        if t.count ≤ 1 then (t.before.launchReplica env spec).2
        else ((t.before.drainOf env t.ms old.id old.index).launchReplica env spec).2
      match answer with
      | .ok _ => false
      | .error _ => true

/-- The events a turn emits. -/
def events (env : Env) (t : Turn) : List AutoscaleEvent := (t.before.tickService env t.nowS t.ms).2

end Turn

/-- The replicas of a service have different ids. -/
theorem nodup_replicasOf (c : Controller) (serviceId : Uuid) :
    ((c.registry.replicasOf serviceId).map (·.id)).Nodup :=
  c.registry.ids_nodup.sublist (List.filter_sublist.map _)

/-- The replica of a launch that succeeds has an id of its own. -/
theorem replicasOf_launch_fresh {ms : ManagedService} {c' : Controller} {index : Nat} {id : Uuid}
    (h : c.launchReplica env (launchSpec ms index) = (c', .ok id)) :
    ∃ r : Replica, r.deploymentId = ms.deploymentId ∧ r.state = .healthy ∧
      c'.registry.replicasOf ms.serviceId = c.registry.replicasOf ms.serviceId ++ [r] ∧
      ∀ x ∈ c.registry.replicasOf ms.serviceId, r.id ≠ x.id := by
  obtain ⟨r, hr, hstate, hadd⟩ := replicasOf_launch_ok h
  refine ⟨r, hr, hstate, hadd, fun x hx hid => ?_⟩
  have hids := nodup_replicasOf c' ms.serviceId
  rw [hadd, List.map_append, List.nodup_append] at hids
  exact hids.2.2 x.id (List.mem_map_of_mem hx) r.id (List.mem_singleton_self _) hid.symm

/-- Launched first and drained after, or the other way round: one is replaced. -/
theorem rolloutStep_replaced (hfind : (t.before.registry.replicasOf t.ms.serviceId).find?
      (·.deploymentId ≠ t.ms.deploymentId) = some old) (hok : t.launchFailed env = false) :
    Replaced t.ms.deploymentId (t.before.registry.replicasOf t.ms.serviceId)
        ((t.after env).registry.replicasOf t.ms.serviceId) ∧
      t.events env = [.rolloutStep t.ms.serviceName t.ms.deploymentId] := by
  have hold := List.mem_of_find?_eq_some hfind
  have hcount : t.before.registry.replicaCount t.ms.serviceId = t.count := rfl
  unfold Turn.launchFailed at hok
  unfold Turn.after Turn.events Controller.tickService
  simp only [hfind] at hok ⊢
  unfold Controller.rolloutStep
  simp only [hcount]
  by_cases hsingle : t.count ≤ 1
  · rw [if_pos hsingle] at hok ⊢
    generalize hlaunch : t.before.launchReplica env
      (launchSpec t.ms (t.before.nextReplicaIndex t.ms.serviceId)) = launched at hok ⊢
    obtain ⟨c, e | id⟩ := launched
    · cases hok
    obtain ⟨r, hr, hstate, hadd, hid⟩ := replicasOf_launch_fresh hlaunch
    refine ⟨⟨old, r, hfind, hr, hstate, ?_⟩, rfl⟩
    -- the new one is not the one that is drained
    have hkept : [r].filter (·.id ≠ old.id) = [r] := by simpa using hid old hold
    show (c.drainOf env t.ms old.id old.index).registry.replicasOf t.ms.serviceId = _
    rw [replicasOf_drainOf, hadd, List.filter_append, hkept]
  · rw [if_neg hsingle] at hok ⊢
    generalize hlaunch : (t.before.drainOf env t.ms old.id old.index).launchReplica env
      (launchSpec t.ms (t.before.nextReplicaIndex t.ms.serviceId)) = launched at hok ⊢
    obtain ⟨c, e | id⟩ := launched
    · cases hok
    obtain ⟨r, hr, hstate, hadd⟩ := replicasOf_launch_ok hlaunch
    refine ⟨⟨old, r, hfind, hr, hstate, ?_⟩, rfl⟩
    show c.registry.replicasOf t.ms.serviceId = _
    rw [hadd, replicasOf_drainOf]

/-! ## §3. One Healthy replica at every point. -/

/-- Some replica is Healthy, and it is the only one or not the one that is drained first. -/
def KeepsOne (target : Uuid) (l : List Replica) : Prop :=
  ∃ r ∈ l, r.state = .healthy ∧ (l.length ≤ 1 ∨ l.find? (·.deploymentId ≠ target) ≠ some r)

theorem one_le_healthyCount : 1 ≤ c.registry.healthyCount serviceId ↔
      ∃ r ∈ c.registry.replicasOf serviceId, r.state = .healthy := by
  unfold ReplicaRegistry.healthyCount
  rw [Nat.one_le_iff_ne_zero, Nat.ne_zero_iff_zero_lt, List.length_pos_iff_exists_mem]
  simp only [List.mem_filter, decide_eq_true_eq]

theorem HasCurrent.keepsOne (h : HasCurrent target l) : KeepsOne target l := by
  obtain ⟨r, hr, hcurrent, hstate⟩ := h
  refine ⟨r, hr, hstate, .inr fun hfind => ?_⟩
  have hne : r.deploymentId ≠ target := by simpa using List.find?_some hfind
  exact hne hcurrent

/-- Where every replica is Healthy, as between operations that are not cut, a rollout keeps
one. -/
theorem AllHealthy.keepsOne (h : AllHealthy c) (serviceId : Uuid)
    (hsome : 1 ≤ c.registry.replicaCount serviceId) :
    KeepsOne target (c.registry.replicasOf serviceId) := by
  have hhealthy : ∀ r ∈ c.registry.replicasOf serviceId, r.state = .healthy :=
    fun r hr => h r (ReplicaRegistry.mem_replicasOf.mp hr).1
  have hids := nodup_replicasOf c serviceId
  have hsome : 0 < (c.registry.replicasOf serviceId).length := hsome
  unfold KeepsOne
  generalize c.registry.replicasOf serviceId = l at hhealthy hids hsome
  match l, hsome with
  | [r], _ => exact ⟨r, by simp, hhealthy r (by simp), .inl (Nat.le_refl 1)⟩
  | r :: s :: rest, _ =>
    -- two different replicas: one of them is not drained first
    have hne : r ≠ s := by
      rintro rfl
      simp at hids
    by_cases hfirst : (r :: s :: rest).find? (·.deploymentId ≠ target) = some r
    · exact ⟨s, by simp, hhealthy s (by simp),
        .inr fun h => hne (Option.some.inj (hfirst.symm.trans h))⟩
    · exact ⟨r, by simp, hhealthy r (by simp), .inr hfirst⟩

section Rolling
variable (hfind : (t.before.registry.replicasOf t.ms.serviceId).find?
  (·.deploymentId ≠ t.ms.deploymentId) = some old)
include hfind

theorem rolloutPoints_one
    (hkeeps : KeepsOne t.ms.deploymentId (t.before.registry.replicasOf t.ms.serviceId)) :
    ∀ p ∈ rolloutPoints env t.ms old t.before, 1 ≤ p.registry.healthyCount t.ms.serviceId := by
  obtain ⟨r, hr, hstate, hother⟩ := hkeeps
  have hold := List.mem_of_find?_eq_some hfind
  have hstart : 1 ≤ t.before.registry.healthyCount t.ms.serviceId :=
    one_le_healthyCount.mpr ⟨r, hr, hstate⟩
  intro p hp
  unfold rolloutPoints at hp
  simp only at hp
  split at hp
  next hsingle =>
    rcases List.mem_append.mp hp with hp | hp
    · exact hstart.trans (launchPoints_ge hp t.ms.serviceId)
    · split at hp
      next c id hlaunch =>
        -- the new replica stays while the old one is drained
        obtain ⟨new, -, hnewState, hadd, hids⟩ := replicasOf_launch_fresh hlaunch
        refine Nat.le_trans (List.length_pos_iff_exists_mem.mpr ⟨new, ?_⟩)
          (drainPoints_ge hp t.ms.serviceId)
        simp [hadd, hids old hold, hnewState]
      next => cases hp
  next hseveral =>
    have hne : r ≠ old := by
      rintro rfl
      exact hother.elim hseveral fun h => h hfind
    have hid : r.id ≠ old.id := fun hid =>
      hne (ReplicaRegistry.eq_of_id_eq (ReplicaRegistry.mem_replicasOf.mp hr).1
        (ReplicaRegistry.mem_replicasOf.mp hold).1 hid)
    have hdrain : ∀ q ∈ drainPoints env t.ms old.id old.index t.before,
        1 ≤ q.registry.healthyCount t.ms.serviceId := by
      intro q hq
      refine Nat.le_trans (List.length_pos_iff_exists_mem.mpr ⟨r, ?_⟩)
        (drainPoints_ge hq t.ms.serviceId)
      simp [hr, hid, hstate]
    rcases List.mem_append.mp hp with hp | hp
    · exact hdrain p hp
    · exact (hdrain _ (drainOf_mem_points env t.ms old.id old.index t.before)).trans
        (launchPoints_ge hp t.ms.serviceId)

theorem keepsOne_of_rolloutPoints (hpoints : ∀ p ∈ rolloutPoints env t.ms old t.before,
      1 ≤ p.registry.healthyCount t.ms.serviceId) :
    KeepsOne t.ms.deploymentId (t.before.registry.replicasOf t.ms.serviceId) := by
  by_cases hsingle : t.before.registry.replicaCount t.ms.serviceId ≤ 1
  · obtain ⟨r, hr, hstate⟩ := one_le_healthyCount.mp
      (hpoints _ (before_mem_rolloutPoints env t.ms old t.before))
    exact ⟨r, hr, hstate, .inl hsingle⟩
  · -- the state in which the old one has gone and the new one has not come
    have hdrained : t.before.drainOf env t.ms old.id old.index
        ∈ rolloutPoints env t.ms old t.before := by
      simp only [rolloutPoints, if_neg hsingle]
      exact List.mem_append_left _ (drainOf_mem_points env t.ms old.id old.index t.before)
    obtain ⟨r, hr, hstate⟩ := one_le_healthyCount.mp (hpoints _ hdrained)
    rw [replicasOf_drainOf] at hr
    obtain ⟨hr, hid⟩ := List.mem_filter.mp hr
    refine ⟨r, hr, hstate, .inr fun hfirst => ?_⟩
    cases hfind.symm.trans hfirst
    simp at hid

/-- **A turn of the rollout keeps one Healthy** exactly if one is Healthy besides the one it
drains first. -/
theorem points_keepsOne_iff : (∀ p ∈ t.points env, 1 ≤ p.registry.healthyCount t.ms.serviceId) ↔
      KeepsOne t.ms.deploymentId (t.before.registry.replicasOf t.ms.serviceId) := by
  constructor
  · intro hpoints
    have hwithin : ∀ p ∈ rolloutPoints env t.ms old t.before, p ∈ t.points env := by
      intro p hp
      simp only [Turn.points, hfind]
      exact List.mem_append_left _ (List.mem_cons_of_mem _ hp)
    exact keepsOne_of_rolloutPoints hfind fun p hp => hpoints p (hwithin p hp)
  · intro hkeeps p hp
    obtain ⟨q, hq, hreg⟩ := mem_points_rollout hfind hp
    rw [hreg]
    exact rolloutPoints_one hfind hkeeps q hq

end Rolling

/-! ## §4. The turns of a run of ticks. -/

/-- The catalog lists the service once, with the target deployment. -/
def Targets (serviceId target : Uuid) (services : List ManagedService) : Prop :=
  (services.filter (·.serviceId = serviceId)).map (·.deploymentId) = [target]

instance (serviceId target : Uuid) (services : List ManagedService) :
    Decidable (Targets serviceId target services) := inferInstanceAs (Decidable (_ = _))

/-- How many turns of a service there have been. -/
def turnsOf (serviceId : Uuid) (turns : List Turn) : Nat :=
  (turns.filter (·.ms.serviceId = serviceId)).length

theorem tickTurns_ms (env : Env) (nowS : Nat) (services : List ManagedService) (c : Controller) :
    (tickTurns env nowS services c).map (·.ms) = services := by
  induction services generalizing c with
  | nil => rfl
  | cons ms rest ih =>
    show ms :: (tickTurns env nowS rest _).map (·.ms) = ms :: rest
    rw [ih]

theorem runTurns_ms (env : Env) (ticks : List (List ManagedService × Nat)) (c : Controller) :
    (runTurns env c (ticksOf ticks)).map (·.ms) = ticks.flatMap (·.1) := by
  induction ticks generalizing c with
  | nil => rfl
  | cons tick rest ih =>
    show (tickTurns env tick.2 tick.1 c ++ runTurns env _ (ticksOf rest)).map (·.ms) = _
    rw [List.map_append, tickTurns_ms, ih]
    rfl

theorem Targets.one {services : List ManagedService} (h : Targets serviceId target services) :
    (services.filter (·.serviceId = serviceId)).length = 1 := by
  rw [← List.length_map (f := ManagedService.deploymentId), h]
  rfl

/-- One turn of the service for each tick. -/
theorem turnsOf_runTurns (hticks : ∀ tick ∈ ticks, Targets serviceId target tick.1)
    (c : Controller) : turnsOf serviceId (runTurns env c (ticksOf ticks)) = ticks.length := by
  have hcount : turnsOf serviceId (runTurns env c (ticksOf ticks))
      = ((ticks.flatMap (·.1)).filter (·.serviceId = serviceId)).length := by
    rw [← runTurns_ms env ticks c, List.filter_map, List.length_map]
    rfl
  rw [hcount]
  induction ticks with
  | nil => rfl
  | cons tick rest ih =>
    rw [List.flatMap_cons, List.filter_append, List.length_append,
      (hticks tick List.mem_cons_self).one]
    have hrest := ih (fun t ht => hticks t (List.mem_cons_of_mem _ ht))
      (by rw [← runTurns_ms env rest c, List.filter_map, List.length_map]; rfl)
    rw [hrest, List.length_cons, Nat.add_comm]

/-- Every turn of the service aims at the target. -/
theorem target_of_turn (hticks : ∀ tick ∈ ticks, Targets serviceId target tick.1)
    (ht : t ∈ runTurns env c (ticksOf ticks)) (hservice : t.ms.serviceId = serviceId) :
    t.ms.deploymentId = target := by
  have hms : t.ms ∈ ticks.flatMap (·.1) := by
    rw [← runTurns_ms env ticks c]
    exact List.mem_map_of_mem ht
  obtain ⟨tick, htick, hmem⟩ := List.mem_flatMap.mp hms
  have hin : t.ms.deploymentId ∈ (tick.1.filter (·.serviceId = serviceId)).map (·.deploymentId) :=
    List.mem_map_of_mem (List.mem_filter.mpr ⟨hmem, by simpa using hservice⟩)
  rw [hticks tick htick] at hin
  exact List.mem_singleton.mp hin

/-! ## §5. The rollout. -/

/-- After the turns `past`, of which at most `n` were the service's: as many older replicas
have gone, the count is the same, and from the first turn on a replica of the target is
Healthy. -/
structure RolledSoFar (serviceId target : Uuid) (start : List Replica) (past : List Turn)
    (c : Controller) : Prop where
  older : olderCount target (c.registry.replicasOf serviceId) + turnsOf serviceId past
    = olderCount target start
  count : c.registry.replicaCount serviceId = start.length
  first : turnsOf serviceId past = 0 → c.registry.replicasOf serviceId = start
  current : 1 ≤ turnsOf serviceId past → HasCurrent target (c.registry.replicasOf serviceId)

theorem turnsOf_concat : turnsOf serviceId (past ++ [t])
      = turnsOf serviceId past + if t.ms.serviceId = serviceId then 1 else 0 := by
  unfold turnsOf
  rw [List.filter_append, List.length_append]
  by_cases h : t.ms.serviceId = serviceId <;> simp [h]

section OneTurn
variable (h : RolledSoFar serviceId target start past t.before)
include h

/-- A turn of the service with an older replica left. -/
theorem RolledSoFar.older_left (hleft : turnsOf serviceId past < olderCount target start) :
    ∃ old, (t.before.registry.replicasOf serviceId).find? (·.deploymentId ≠ target) = some old := by
  refine exists_old ?_
  have holder := h.older
  omega

theorem RolledSoFar.keepsOne (hkeeps : KeepsOne target start) :
    KeepsOne target (t.before.registry.replicasOf serviceId) := by
  cases hturns : turnsOf serviceId past with
  | zero =>
    rwa [h.first hturns]
  | succ => exact (h.current (by omega)).keepsOne

/-- **A turn**, of the service or of another one. -/
theorem rolledSoFar_turn (hleft : turnsOf serviceId (past ++ [t]) ≤ olderCount target start)
    (hguard : t.ms.serviceId = serviceId →
      t.ms.deploymentId = target ∧ t.launchFailed env = false) :
    RolledSoFar serviceId target start (past ++ [t]) (t.after env) := by
  rw [turnsOf_concat] at hleft
  by_cases hservice : t.ms.serviceId = serviceId
  · obtain ⟨htarget, hok⟩ := hguard hservice
    rw [if_pos hservice] at hleft
    subst hservice htarget
    obtain ⟨old, hfind⟩ := h.older_left hleft
    obtain ⟨hreplaced, -⟩ := rolloutStep_replaced hfind hok
    have hids := nodup_replicasOf t.before t.ms.serviceId
    have hone := hreplaced.olderCount hids
    have holder := h.older
    refine ⟨?_, (hreplaced.length hids).trans h.count, ?_, fun _ => hreplaced.hasCurrent⟩ <;>
      rw [turnsOf_concat, if_pos rfl] <;> omega
  · have hturns : turnsOf serviceId (past ++ [t]) = turnsOf serviceId past := by
      rw [turnsOf_concat, if_neg hservice]
      rfl
    have hsame : (t.after env).registry.replicasOf serviceId
        = t.before.registry.replicasOf serviceId :=
      (tickService_untouched env hservice t.nowS t.before).replicas
    constructor <;> simp only [ReplicaRegistry.replicaCount, hsame, hturns]
    exacts [h.older, h.count, h.first, h.current]

end OneTurn

section Ticks
variable (hticks : ∀ tick ∈ ticks, Targets serviceId target tick.1)
  (hlength : ticks.length ≤ olderCount target (c.registry.replicasOf serviceId))
  (hlaunches : ∀ t ∈ runTurns env c (ticksOf ticks), t.ms.serviceId = serviceId →
    t.launchFailed env = false)
include hticks hlength hlaunches

/-- **The run**: the invariant holds at the end and where each turn starts, and an older
replica is left for each turn of the service. -/
theorem rolledSoFar_run : RolledSoFar serviceId target (c.registry.replicasOf serviceId)
        (runTurns env c (ticksOf ticks)) (runOps env c (ticksOf ticks)) ∧
      ∀ earlier t later, runTurns env c (ticksOf ticks) = earlier ++ t :: later →
        RolledSoFar serviceId target (c.registry.replicasOf serviceId) earlier t.before ∧
        (t.ms.serviceId = serviceId →
          turnsOf serviceId earlier < olderCount target (c.registry.replicasOf serviceId)) := by
  set start := c.registry.replicasOf serviceId with hstart
  have hturns : turnsOf serviceId (runTurns env c (ticksOf ticks)) = ticks.length :=
    turnsOf_runTurns hticks c
  let Inv : List Turn → Controller → Prop := fun past c =>
    turnsOf serviceId past ≤ olderCount target start → RolledSoFar serviceId target start past c
  have hInv : Inv [] c := fun _ => ⟨rfl, rfl, fun _ => rfl,
    fun h => absurd h (Nat.not_succ_le_zero 0)⟩
  have hturn : ∀ past t, Inv past t.before → (t.ms.serviceId = serviceId →
      t.ms.deploymentId = target ∧ t.launchFailed env = false) →
      Inv (past ++ [t]) (t.after env) := by
    intro past t hinv hok hleft
    refine rolledSoFar_turn (hinv ?_) hleft hok
    rw [turnsOf_concat] at hleft
    omega
  have hprune : ∀ past c services, Inv past c → Inv past (c.pruneCooldowns services) :=
    fun _ _ _ hinv hleft => ⟨(hinv hleft).older, (hinv hleft).count, (hinv hleft).first,
      (hinv hleft).current⟩
  have hnotick : ∀ past c (op : Op), op.isTick = true → op.isTick = false →
      Inv past c → Inv past (op.run env c) := by simp +contextual
  have hisTick : ∀ op ∈ ticksOf ticks, op.isTick = true :=
    List.forall_mem_map.mpr fun _ _ => rfl
  obtain ⟨hend, hmid⟩ := runTurns_invariant hturn hprune hnotick (ticksOf ticks) hisTick [] c hInv
    fun t ht hservice => ⟨target_of_turn hticks ht hservice, hlaunches t ht hservice⟩
  rw [List.nil_append] at hend
  refine ⟨hend (hturns.trans_le hlength), fun earlier t later heq => ?_⟩
  -- the turns of the service up to this one are not more than the ticks
  have hsum : turnsOf serviceId (earlier ++ [t]) + turnsOf serviceId later = ticks.length := by
    rw [← hturns, heq]
    unfold turnsOf
    rw [← List.length_append, ← List.filter_append, List.append_assoc]
    rfl
  rw [turnsOf_concat] at hsum
  have hstarts := hmid earlier t later heq
  rw [List.nil_append] at hstarts
  refine ⟨hstarts (by omega), fun hservice => ?_⟩
  rw [if_pos hservice] at hsum
  omega

/-- Every turn of the service is a rollout step. -/
theorem rollout_events : ∀ t ∈ runTurns env c (ticksOf ticks), t.ms.serviceId = serviceId →
      t.events env = [.rolloutStep t.ms.serviceName target] := by
  intro t ht hservice
  obtain ⟨earlier, later, heq⟩ := List.append_of_mem ht
  obtain ⟨hrolled, hleft⟩ := (rolledSoFar_run hticks hlength hlaunches).2 earlier t later heq
  obtain ⟨old, hfind⟩ := hrolled.older_left (hleft hservice)
  have htarget := target_of_turn hticks ht hservice
  subst hservice htarget
  exact (rolloutStep_replaced hfind (hlaunches t ht rfl)).2

/-- One replica is Healthy at every point exactly if it is so in the first turn. -/
theorem rollout_points_iff (hsome : 1 ≤ ticks.length) :
    (∀ t ∈ runTurns env c (ticksOf ticks), ∀ p ∈ t.points env,
        1 ≤ p.registry.healthyCount serviceId) ↔
      KeepsOne target (c.registry.replicasOf serviceId) := by
  have hmid := (rolledSoFar_run hticks hlength hlaunches).2
  constructor
  · intro hpoints
    -- the first turn of the service finds the replicas as they were
    have hexists : ∃ t ∈ runTurns env c (ticksOf ticks), t.ms.serviceId = serviceId := by
      have hpos : 0 < turnsOf serviceId (runTurns env c (ticksOf ticks)) := by
        rwa [turnsOf_runTurns hticks c]
      obtain ⟨t, ht⟩ := List.exists_mem_of_length_pos hpos
      obtain ⟨ht, hservice⟩ := List.mem_filter.mp ht
      exact ⟨t, ht, by simpa using hservice⟩
    obtain ⟨t, hfirst⟩ := Option.isSome_iff_exists.mp (List.find?_isSome.mpr
      (hexists.imp fun t h => ⟨h.1, decide_eq_true h.2⟩))
    obtain ⟨hservice, earlier, later, heq, hnone⟩ := List.find?_eq_some_iff_append.mp hfirst
    have hservice : t.ms.serviceId = serviceId := by simpa using hservice
    have ht := List.mem_of_find?_eq_some hfirst
    obtain ⟨hrolled, hleft⟩ := hmid earlier t later heq
    have hzero : turnsOf serviceId earlier = 0 := by simpa [turnsOf] using hnone
    obtain ⟨old, hfind⟩ := hrolled.older_left (hleft hservice)
    have htarget := target_of_turn hticks ht hservice
    have hstart := hrolled.first hzero
    subst hservice htarget
    rw [← hstart]
    exact (points_keepsOne_iff hfind).mp (hpoints t ht)
  · intro hkeeps t ht
    obtain ⟨earlier, later, heq⟩ := List.append_of_mem ht
    obtain ⟨hrolled, hleft⟩ := hmid earlier t later heq
    have hbefore := hrolled.keepsOne hkeeps
    by_cases hservice : t.ms.serviceId = serviceId
    · obtain ⟨old, hfind⟩ := hrolled.older_left (hleft hservice)
      have htarget := target_of_turn hticks ht hservice
      subst hservice htarget
      exact (points_keepsOne_iff hfind).mpr hbefore
    · intro p hp
      obtain ⟨r, hr, hstate, -⟩ := hbefore
      exact (one_le_healthyCount.mpr ⟨r, hr, hstate⟩).trans (points_other hservice p hp)

end Ticks

/-- **A rollout moves on by one replica per tick.**  From any state with `n` older replicas
and `m` of the target, at most `n` ticks whose launches all succeed: the count is `n + m` at
the end, as many older replicas are left as ticks are missing, and the service's turns emit
rollout steps only.  One replica is Healthy at every point exactly if one was at the start,
besides the one that is drained first. -/
theorem rollout_completes_in_order (env : Env) (c : Controller) (serviceId target : Uuid)
    (ticks : List (List ManagedService × Nat)) (n m : Nat)
    (hn : ((c.registry.replicasOf serviceId).filter (·.deploymentId ≠ target)).length = n)
    (hm : ((c.registry.replicasOf serviceId).filter (·.deploymentId = target)).length = m)
    (hticks : ∀ tick ∈ ticks, Targets serviceId target tick.1) (hlength : ticks.length ≤ n)
    (hlaunches : ∀ t ∈ runTurns env c (ticksOf ticks), t.ms.serviceId = serviceId →
      t.launchFailed env = false) :
    let replicas := (runOps env c (ticksOf ticks)).registry.replicasOf serviceId
    replicas.length = n + m ∧
    (replicas.filter (·.deploymentId ≠ target)).length = n - ticks.length ∧
    (∀ t ∈ runTurns env c (ticksOf ticks), t.ms.serviceId = serviceId →
      t.events env = [.rolloutStep t.ms.serviceName target]) ∧
    (1 ≤ ticks.length →
      ((∀ t ∈ runTurns env c (ticksOf ticks), ∀ p ∈ t.points env,
          1 ≤ p.registry.healthyCount serviceId) ↔
        KeepsOne target (c.registry.replicasOf serviceId))) := by
  intro replicas
  have holder : olderCount target (c.registry.replicasOf serviceId) = n := hn
  have hlength' : ticks.length ≤ olderCount target (c.registry.replicasOf serviceId) :=
    holder ▸ hlength
  obtain ⟨hrolled, -⟩ := rolledSoFar_run hticks hlength' hlaunches
  have hparts : (c.registry.replicasOf serviceId).length = n + m := by
    rw [← hn, ← hm, List.length_eq_length_filter_add fun r => decide (r.deploymentId ≠ target)]
    simp
  refine ⟨hrolled.count.trans hparts, ?_, rollout_events hticks hlength' hlaunches,
    rollout_points_iff hticks hlength' hlaunches⟩
  have hleft := hrolled.older
  rw [turnsOf_runTurns hticks c, holder] at hleft
  show olderCount target replicas = n - ticks.length
  exact Nat.eq_sub_of_add_eq hleft

/-! ## §6. A replica that was never Healthy. -/

/-- `web` with a newer deployment. -/
def redeployedWeb : ManagedService := { web ⟨500, 1024⟩ with deploymentId := 9 }

/-- **A rollout without a Healthy replica.**  The activation of `web` is cut by its timeout
during the health check, and its replica stays registered as pending.  After a redeploy one
tick replaces it, and the launch succeeds; but before that no replica is Healthy. -/
theorem rollout_of_pending : ∃ σ, exec (Proxy.step calmEnv webCatalog) idleProxy
        (untilHealthCheck ++ [.elapse activationWait, .timeout 0 ⟨∅⟩]) = some σ ∧
      let ticks := [([redeployedWeb], 10)]
      olderCount 9 (σ.ctl.registry.replicasOf 7) = 1 ∧
      (∀ tick ∈ ticks, Targets 7 9 tick.1) ∧
      (∀ t ∈ runTurns calmEnv σ.ctl (ticksOf ticks), t.launchFailed calmEnv = false) ∧
      ∃ t ∈ runTurns calmEnv σ.ctl (ticksOf ticks), ∃ p ∈ t.points calmEnv,
        p.registry.healthyCount 7 = 0 := by
  decide +kernel

/-- Two replicas are rolled over in two ticks, and one is Healthy all along. -/
theorem rollout_completes_pair :
    let c := runOps calmEnv quietHost [.tick [boundedWeb 2 2 (by decide)] 0]
    let ticks := [([newerWeb 2 (by decide)], 10), ([newerWeb 2 (by decide)], 20)]
    let replicas := (runOps calmEnv c (ticksOf ticks)).registry.replicasOf 7
    replicas.length = 2 ∧ (replicas.filter (·.deploymentId ≠ 9)).length = 0 ∧
      ∀ t ∈ runTurns calmEnv c (ticksOf ticks), ∀ p ∈ t.points calmEnv,
        1 ≤ p.registry.healthyCount 7 := by
  intro c ticks replicas
  have hn : ((c.registry.replicasOf 7).filter (·.deploymentId ≠ 9)).length = 2 := by decide +kernel
  have hm : ((c.registry.replicasOf 7).filter (·.deploymentId = 9)).length = 0 := by decide +kernel
  have hticks : ∀ tick ∈ ticks, Targets 7 9 tick.1 := by decide +kernel
  have hlaunches : ∀ t ∈ runTurns calmEnv c (ticksOf ticks), t.ms.serviceId = 7 →
      t.launchFailed calmEnv = false := by decide +kernel
  obtain ⟨hcount, hleft, -, hpoints⟩ :=
    rollout_completes_in_order calmEnv c 7 9 ticks 2 0 hn hm hticks (by decide) hlaunches
  refine ⟨hcount, hleft, (hpoints (by decide)).mpr ?_⟩
  have hfresh : AllHealthy quietHost := nofun
  exact (runOps_allHealthy hfresh _).keepsOne 7 (by decide +kernel)

end Denia.Autoscale
