/-
  Denia.Autoscale.Bounds — does a scaling tick enforce the replica bounds?

  The count a turn goes for comes from one of three branches: a reading above its target,
  a cpu reading below it for the whole cooldown, or neither.  The first two are CLAMPED to
  the bounds of the policy.  The third one, which holds the count, is not: a count outside the
  bounds stays there for as long as the readings stay at target.

  Main results: `turn_count`, the count after a turn with a sample; `tick_bounds_iff`;
  `tick_keeps_excess`.
-/
import Denia.Autoscale.Conservation
import Denia.Autoscale.Turns

namespace Denia.Autoscale

/-- The cpu reading calls for fewer, and has done so for the whole cooldown. -/
def Turn.FewerForLong (env : Env) (t : Turn) : Prop :=
  t.CallsForFewer env ∧ ∃ since, t.before.window t.ms.serviceId = some since ∧
    t.ms.policy.scaleDownCooldownS ≤ t.nowS - since

section
variable {env : Env} {t : Turn}

/-- A turn that goes for `desired` and has every launch succeed ends there. -/
theorem replicaCount_reconciled {c : Controller} {desired : Nat} (hsampled : t.Sampled env)
    (hdecision : t.before.tickDecision env t.ms t.nowS t.count = (c, .reconcile desired))
    (hreg : c.registry = t.before.registry)
    (hlaunch : ∀ reason, .scaleUpDenied t.ms.serviceName reason ∉
      (t.before.tickService env t.nowS t.ms).2) :
    (t.after env).registry.replicaCount t.ms.serviceId = desired := by
  have hturn := tickService_reconcile hsampled.current hdecision
  have hstart : t.count = c.registry.replicaCount t.ms.serviceId := by
    rw [hreg]
    rfl
  obtain ⟨hreached, -⟩ := reconcileTo_count env t.ms desired c
  rw [← hstart] at hreached
  have hafter : (t.after env).registry.replicaCount t.ms.serviceId
      = (c.reconcileTo env t.ms t.count desired).1.registry.replicaCount t.ms.serviceId := by
    unfold Turn.after
    rw [hturn]
    rfl
  rw [hafter]
  rcases hreached with hcount | ⟨reason, hdenied⟩
  · exact hcount
  · have hnone := hlaunch reason
    rw [hturn] at hnone
    exact absurd hdenied hnone

/-- **The count after a turn with a sample**: within the bounds when a reading moved it,
as it was otherwise. -/
theorem turn_count (hsampled : t.Sampled env) (hbusy : ¬ t.Idle env)
    (hlaunch : ∀ reason, .scaleUpDenied t.ms.serviceName reason ∉
      (t.before.tickService env t.nowS t.ms).2) :
    let count := (t.after env).registry.replicaCount t.ms.serviceId
    (t.CallsForMore env ∨ t.FewerForLong env) ∧
        (t.ms.policy.minReplicas ≤ count ∧ count ≤ t.ms.policy.maxReplicas) ∨
      ¬ (t.CallsForMore env ∨ t.FewerForLong env) ∧ count = t.count := by
  intro count
  have hdecided := tickDecision_decided hsampled
  generalize hdecision : t.before.tickDecision env t.ms t.nowS t.count = result at hdecided
  cases hdecided with
  | idle hidle => exact absurd hidle hbusy
  | more _ hmore =>
    refine .inl ⟨.inl hmore, ?_⟩
    have hcount : count = _ := replicaCount_reconciled hsampled hdecision rfl hlaunch
    rw [hcount]
    exact clampLoop_bounds t.ms.policy _
  | opens _ hmore _ hwindow =>
    refine .inr ⟨?_, replicaCount_reconciled hsampled hdecision rfl hlaunch⟩
    intro hmoved
    rcases hmoved with h | ⟨-, since, h, -⟩
    · exact hmore h
    · simp [hwindow] at h
  | waits _ hmore _ hwindow =>
    refine .inr ⟨?_, replicaCount_reconciled hsampled hdecision rfl hlaunch⟩
    intro hmoved
    rcases hmoved with h | ⟨-, since, h, hlong⟩
    · exact hmore h
    · rw [hwindow] at h
      injection h with h
      omega
  | lowers _ _ hfewer hwindow hlong =>
    refine .inl ⟨.inr ⟨hfewer, _, hwindow, hlong⟩, ?_⟩
    have hcount : count = _ := replicaCount_reconciled hsampled hdecision rfl hlaunch
    rw [hcount]
    exact clampLoop_bounds t.ms.policy _
  | holds _ hmore hfewer =>
    refine .inr ⟨?_, replicaCount_reconciled hsampled hdecision rfl hlaunch⟩
    intro hmoved
    rcases hmoved with h | ⟨h, -⟩
    · exact hmore h
    · exact hfewer h

end

/-- The service loop over two lists, one after the other. -/
theorem tickServices_append (env : Env) (nowS : Nat) (before after : List ManagedService)
    (c : Controller) : (c.tickServices env nowS (before ++ after)).1
      = ((c.tickServices env nowS before).1.tickServices env nowS after).1 := by
  induction before generalizing c with
  | nil => rfl
  | cons m rest ih => exact ih (c.tickService env nowS m).1

/-- **A tick enforces the bounds exactly when it does not hold a count outside them.** -/
theorem tick_bounds_iff (env : Env) (before after : List ManagedService) (ms : ManagedService)
    (nowS : Nat) (c : Controller) (hbefore : ∀ m ∈ before, m.serviceId ≠ ms.serviceId)
    (hafter : ∀ m ∈ after, m.serviceId ≠ ms.serviceId)
    (hsampled : Turn.Sampled env ⟨nowS, ms, (c.tickServices env nowS before).1⟩)
    (hbusy : ¬ Turn.Idle env ⟨nowS, ms, (c.tickServices env nowS before).1⟩)
    (hlaunch : ∀ reason, .scaleUpDenied ms.serviceName reason ∉
      ((c.tickServices env nowS before).1.tickService env nowS ms).2) :
    let t : Turn := ⟨nowS, ms, (c.tickServices env nowS before).1⟩
    let start := c.registry.replicaCount ms.serviceId
    let count := (c.tick env (before ++ ms :: after) nowS).1.registry.replicaCount ms.serviceId
    (ms.policy.minReplicas ≤ count ∧ count ≤ ms.policy.maxReplicas) ↔
      (ms.policy.minReplicas ≤ start ∧ start ≤ ms.policy.maxReplicas) ∨ t.CallsForMore env ∨
        (t.CallsForFewer env ∧ ∃ since, c.window ms.serviceId = some since ∧
          ms.policy.scaleDownCooldownS ≤ nowS - since) := by
  intro t start count
  have huntouched := tickServices_untouched env hbefore nowS c
  have hstart : t.count = start := congrArg List.length huntouched.replicas
  have hwindow : t.before.window ms.serviceId = c.window ms.serviceId := by
    unfold Controller.window
    rw [huntouched.cooldown]
  -- what follows the turn leaves the count
  have hcount : count = (t.after env).registry.replicaCount ms.serviceId := by
    have hlater := (tickServices_untouched env hafter nowS (t.after env)).replicas
    show ((c.tickServices env nowS (before ++ ms :: after)).1.registry.replicasOf _).length = _
    rw [tickServices_append]
    exact congrArg List.length hlater
  have hturn := turn_count hsampled hbusy hlaunch
  rw [← hcount] at hturn
  have hlong : t.FewerForLong env ↔ (t.CallsForFewer env ∧ ∃ since,
      c.window ms.serviceId = some since ∧ ms.policy.scaleDownCooldownS ≤ nowS - since) := by
    rw [← hwindow]
    rfl
  rw [← hlong]
  rcases hturn with ⟨hmoved, hbounds⟩ | ⟨hheld, hsame⟩
  · exact ⟨fun _ => .inr hmoved, fun _ => hbounds⟩
  · rw [hsame, hstart]
    constructor
    · exact fun h => .inl h
    · intro h
      rcases h with h | h
      · exact h
      · exact absurd h hheld

/-! ## §1. A policy edit. -/

/-- `web` with other replica bounds. -/
def boundedWeb (minReplicas maxReplicas : Nat)
    (h : 1 ≤ maxReplicas ∧ minReplicas ≤ maxReplicas) : ManagedService :=
  { web ⟨500, 1024⟩ with
    policy := { (web ⟨500, 1024⟩).policy with
      minReplicas := minReplicas, maxReplicas := maxReplicas, replica_bounds := h } }

/-- A host on which the cpu reading is at the target of `web`. -/
def steadyEnv : Env := { calmEnv with usage := fun _ _ => ⟨80, 0, 1⟩ }

/-- Five replicas of `web`, before its maximum is lowered. -/
def crowded : Controller := runOps steadyEnv quietHost [.tick [boundedWeb 5 5 (by decide)] 0]

/-- **The defect.**  The maximum of a service with five replicas is lowered to three; the
readings are at target, and the tick leaves all five. -/
theorem tick_keeps_excess :
    let ms := boundedWeb 1 3 (by decide)
    Turn.Sampled steadyEnv ⟨10, ms, crowded⟩ ∧ ¬ Turn.Idle steadyEnv ⟨10, ms, crowded⟩ ∧
      (crowded.tickService steadyEnv 10 ms).2 = [] ∧
      (crowded.tick steadyEnv [ms] 10).1.registry.replicaCount ms.serviceId = 5 ∧
      ms.policy.maxReplicas = 3 := by
  refine ⟨⟨?_, ?_, ?_⟩, ?_, ?_, ?_, rfl⟩
  · decide +kernel
  · decide +kernel
  · decide +kernel
  · intro hidle
    exact absurd hidle.1 (by decide)
  · decide +kernel
  · decide +kernel

/-- With the bounds at one and five the same tick leaves the count within them. -/
theorem tick_bounds_iff_web :
    let ms := boundedWeb 1 5 (by decide)
    let count := (crowded.tick steadyEnv [ms] 10).1.registry.replicaCount ms.serviceId
    1 ≤ count ∧ count ≤ 5 := by
  have hsampled : Turn.Sampled steadyEnv ⟨10, boundedWeb 1 5 (by decide), crowded⟩ :=
    ⟨by decide +kernel, by decide +kernel, by decide +kernel⟩
  have hbusy : ¬ Turn.Idle steadyEnv ⟨10, boundedWeb 1 5 (by decide), crowded⟩ :=
    fun hidle => absurd hidle.1 (by decide)
  have hquiet : (crowded.tickService steadyEnv 10 (boundedWeb 1 5 (by decide))).2 = [] := by
    decide +kernel
  have hiff := tick_bounds_iff steadyEnv [] [] (boundedWeb 1 5 (by decide)) 10 crowded
    (by simp) (by simp) hsampled hbusy fun reason hmem => by
      have hmem : _ ∈ (crowded.tickService steadyEnv 10 (boundedWeb 1 5 (by decide))).2 := hmem
      simp [hquiet] at hmem
  exact hiff.mpr (.inl (by decide +kernel))

end Denia.Autoscale
