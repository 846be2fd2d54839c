/-
  Denia.Autoscale.Turns — a tick, cut into the TURNS of its services.

  A turn is one service's part of a tick: what it reads is the state it starts in and
  one sample of the metrics, what it changes is its own service.

  Main results: `runTurns_invariant`, the rule for the turns of a run;
  `tickService_untouched`, for other services; `tickDecision_decided`, what a turn with a
  sample decides.
-/
import Denia.Autoscale.Steps

namespace Denia.Autoscale

open Relation

/-- One service's part of a tick, with the state it starts in. -/
structure Turn where
  nowS : Nat
  ms : ManagedService
  before : Controller

/-- The state a turn leaves. -/
def Turn.after (env : Env) (t : Turn) : Controller := (t.before.tickService env t.nowS t.ms).1

/-- The turns of a tick. -/
def tickTurns (env : Env) (nowS : Nat) : List ManagedService → Controller → List Turn
  | [], _ => []
  | ms :: rest, c => ⟨nowS, ms, c⟩ :: tickTurns env nowS rest (c.tickService env nowS ms).1

/-- The turns of an operation. -/
def Op.turns (env : Env) (c : Controller) : Op → List Turn
  | .tick services nowS => tickTurns env nowS services c
  | _ => []

/-- The turns of a sequence of operations, in order. -/
def runTurns (env : Env) : Controller → List Op → List Turn
  | _, [] => []
  | c, op :: rest => op.turns env c ++ runTurns env (op.run env c) rest

variable {env : Env}

/-! ## §1. Invariants of a run. -/

section
variable {Inv : List Turn → Controller → Prop} {guard : Turn → Prop}

/-- The turns of one tick: the invariant holds where each of them starts, and at the end. -/
theorem tickTurns_invariant
    (hturn : ∀ past t, Inv past t.before → guard t → Inv (past ++ [t]) (t.after env))
    (nowS : Nat) (services : List ManagedService) :
    ∀ (past : List Turn) (c : Controller), Inv past c →
      (∀ t ∈ tickTurns env nowS services c, guard t) →
      Inv (past ++ tickTurns env nowS services c) (c.tickServices env nowS services).1 ∧
        ∀ earlier t later, tickTurns env nowS services c = earlier ++ t :: later →
          Inv (past ++ earlier) t.before := by
  induction services with
  | nil =>
    intro past c hinv _
    refine ⟨?_, fun earlier t later heq => ?_⟩
    · show Inv (past ++ []) c
      rwa [List.append_nil]
    · cases earlier <;> cases heq
  | cons ms rest ih =>
    intro past c hinv hguard
    have hafter : Inv (past ++ [⟨nowS, ms, c⟩]) (c.tickService env nowS ms).1 :=
      hturn past ⟨nowS, ms, c⟩ hinv (hguard _ List.mem_cons_self)
    obtain ⟨hend, hmid⟩ := ih _ _ hafter fun t ht => hguard t (List.mem_cons_of_mem _ ht)
    refine ⟨?_, fun earlier t later heq => ?_⟩
    · rwa [List.append_assoc] at hend
    · cases earlier with
      | nil =>
        injection heq with hhead _
        rwa [List.append_nil, ← hhead]
      | cons x earlier =>
        injection heq with hhead htail
        have h := hmid earlier t later htail
        rwa [List.append_assoc, hhead] at h

/-- **The invariant rule for turns**, over runs of operations that meet `P`. -/
theorem runTurns_invariant {P : Op → Prop}
    (hturn : ∀ past t, Inv past t.before → guard t → Inv (past ++ [t]) (t.after env))
    (hprune : ∀ past c services, Inv past c → Inv past (c.pruneCooldowns services))
    (hop : ∀ past c op, P op → op.isTick = false → Inv past c → Inv past (op.run env c))
    (ops : List Op) (hops : ∀ op ∈ ops, P op) :
    ∀ (past : List Turn) (c : Controller), Inv past c → (∀ t ∈ runTurns env c ops, guard t) →
      Inv (past ++ runTurns env c ops) (runOps env c ops) ∧
        ∀ earlier t later, runTurns env c ops = earlier ++ t :: later →
          Inv (past ++ earlier) t.before := by
  induction ops with
  | nil =>
    intro past c hinv _
    refine ⟨?_, fun earlier t later heq => ?_⟩
    · show Inv (past ++ []) c
      rwa [List.append_nil]
    · cases earlier <;> cases heq
  | cons op rest ih =>
    intro past c hinv hguard
    -- one operation
    have hone : Inv (past ++ op.turns env c) (op.run env c) ∧
        ∀ earlier t later, op.turns env c = earlier ++ t :: later →
          Inv (past ++ earlier) t.before := by
      cases hisTick : op.isTick with
      | true =>
        cases op with
        | tick services nowS =>
          obtain ⟨hend, hmid⟩ := tickTurns_invariant hturn nowS services past c hinv
            fun t ht => hguard t (List.mem_append_left _ ht)
          exact ⟨hprune _ _ services hend, hmid⟩
        | activateOne | reconcileBoot | reconcileService | drainAll => cases hisTick
      | false =>
        have hnone : op.turns env c = [] := by
          cases op with
          | tick => cases hisTick
          | activateOne | reconcileBoot | reconcileService | drainAll => rfl
        rw [hnone, List.append_nil]
        refine ⟨hop past c op (hops op List.mem_cons_self) hisTick hinv, ?_⟩
        intro earlier t later heq
        cases earlier <;> cases heq
    obtain ⟨hend, hmid⟩ := ih (fun o ho => hops o (List.mem_cons_of_mem _ ho)) _ _ hone.1
      fun t ht => hguard t (List.mem_append_right _ ht)
    refine ⟨?_, fun earlier t later heq => ?_⟩
    · rwa [List.append_assoc] at hend
    · -- the turn is one of this operation's, or one of the rest's
      rcases List.append_eq_append_iff.mp heq with ⟨mid, hearlier, hrest⟩ | ⟨mid, hturns, hrest⟩
      · have h := hmid mid t later hrest
        rwa [List.append_assoc, ← hearlier] at h
      · cases mid with
        | nil =>
          have h := hmid [] t later hrest.symm
          rw [List.append_nil] at hturns h
          rwa [← hturns]
        | cons x mid =>
          injection hrest with hx _
          rw [← hx] at hturns
          exact hone.2 earlier t mid hturns

end

variable {ms : ManagedService} {c c' : Controller}

/-! ## §2. What launches and drains do to the replicas of a service. -/
/-- A launch that succeeds adds one Healthy replica of the launched deployment. -/
theorem replicasOf_launch_ok {index : Nat} {id : Uuid}
    (h : c.launchReplica env (launchSpec ms index) = (c', .ok id)) :
    ∃ r : Replica, r.deploymentId = ms.deploymentId ∧ r.state = .healthy ∧
      c'.registry.replicasOf ms.serviceId = c.registry.replicasOf ms.serviceId ++ [r] := by
  have hlaunched := launchReplica_launched env (launchSpec ms index) c
  rw [h] at hlaunched
  cases hlaunched with
  | @healthy ledger socket =>
    have hadd := c.registry.replicasOf_add_setState ms.serviceId ms.deploymentId index socket
      ms.limits .healthy ms.serviceId
    rw [if_pos rfl] at hadd
    exact ⟨_, rfl, rfl, hadd⟩

/-- A launch that fails leaves the replicas of every service as they were. -/
theorem replicasOf_launch_error {spec : LaunchSpec} {e : LifecycleError}
    (h : c.launchReplica env spec = (c', .error e)) (serviceId : Uuid) :
    c'.registry.replicasOf serviceId = c.registry.replicasOf serviceId := by
  have hlaunched := launchReplica_launched env spec c
  rw [h] at hlaunched
  cases hlaunched with
  | denied => rfl
  | notStarted => rfl
  | @unhealthy _ socket =>
    have hsame := c.registry.remove_add spec.serviceId spec.deploymentId spec.replicaIndex
      socket spec.limits
    exact congrArg (List.filter _) hsame

theorem replicasOf_drainOf (replicaId : Uuid) (index : Nat) (serviceId : Uuid) :
    (c.drainOf env ms replicaId index).registry.replicasOf serviceId
      = (c.registry.replicasOf serviceId).filter (·.id ≠ replicaId) :=
  c.registry.replicasOf_setState_remove replicaId .draining serviceId

/-- A drain of a registered replica takes one away. -/
theorem replicaCount_drainOf (env : Env) {r : Replica}
    (hr : r ∈ c.registry.replicasOf ms.serviceId) :
    (c.drainOf env ms r.id r.index).registry.replicaCount ms.serviceId + 1
      = c.registry.replicaCount ms.serviceId := by
  have hnodup : ((c.registry.replicasOf ms.serviceId).map (·.id)).Nodup :=
    c.registry.ids_nodup.sublist (List.filter_sublist.map _)
  show (ReplicaRegistry.replicasOf _ _).length + 1 = (c.registry.replicasOf ms.serviceId).length
  rw [replicasOf_drainOf]
  simpa using ReplicaRegistry.sum_filter_id_ne hnodup hr fun _ => 1

/-- The launch loop reaches what it launched, and tells of the launch that failed. -/
theorem launchUpTo_count (env : Env) (ms : ManagedService) (n : Nat) (c : Controller) :
    (c.launchUpTo env ms n).1.registry.replicaCount ms.serviceId
        = c.registry.replicaCount ms.serviceId + (c.launchUpTo env ms n).2.1 ∧
      ((c.launchUpTo env ms n).2.1 = n ∨ (c.launchUpTo env ms n).2.1 < n ∧
        ∃ reason, .scaleUpDenied ms.serviceName reason ∈ (c.launchUpTo env ms n).2.2) := by
  induction n generalizing c with
  | zero => exact ⟨rfl, .inl rfl⟩
  | succ n ih =>
    unfold Controller.launchUpTo
    split
    next c' id hlaunch =>
      obtain ⟨r, -, -, hadd⟩ := replicasOf_launch_ok hlaunch
      have hone : c'.registry.replicaCount ms.serviceId
          = c.registry.replicaCount ms.serviceId + 1 := by
        show (c'.registry.replicasOf ms.serviceId).length = _
        rw [hadd, List.length_append]
        rfl
      obtain ⟨hcount, hreached⟩ := ih c'
      show (c'.launchUpTo env ms n).1.registry.replicaCount ms.serviceId
          = c.registry.replicaCount ms.serviceId + ((c'.launchUpTo env ms n).2.1 + 1) ∧
        ((c'.launchUpTo env ms n).2.1 + 1 = n + 1 ∨ (c'.launchUpTo env ms n).2.1 + 1 < n + 1 ∧
          ∃ reason, .scaleUpDenied ms.serviceName reason ∈ (c'.launchUpTo env ms n).2.2)
      refine ⟨by omega, ?_⟩
      rcases hreached with hall | ⟨hless, hdenied⟩
      · exact .inl (by omega)
      · exact .inr ⟨by omega, hdenied⟩
    next c' e hlaunch =>
      have hsame := replicasOf_launch_error hlaunch ms.serviceId
      refine ⟨?_, .inr ⟨Nat.succ_pos n, denyReason e, List.mem_singleton_self _⟩⟩
      show (c'.registry.replicasOf ms.serviceId).length = _
      rw [hsame]
      rfl

theorem maxByIndex_eq_none {l : List Replica} (h : maxByIndex l = none) : l = [] := by
  cases l with
  | nil => rfl
  | cons x xs =>
    refine absurd h (List.foldlRecOn xs _ (motive := fun best => best ≠ none) ?_ ?_)
    · rintro ⟨⟩
    · intro best hbest r _
      cases best with
      | none => exact absurd rfl hbest
      | some =>
        simp only
        split <;> rintro ⟨⟩

/-- The drain loop takes away as many as it is told to, while there are any. -/
theorem drainDown_count (env : Env) (ms : ManagedService) (n : Nat) (c : Controller) :
    (c.drainDown env ms n).1.registry.replicaCount ms.serviceId
      = c.registry.replicaCount ms.serviceId - n := by
  induction n generalizing c with
  | zero => rfl
  | succ n ih =>
    unfold Controller.drainDown
    split
    next hnone =>
      have hempty : c.registry.replicaCount ms.serviceId = 0 := by
        show (c.registry.replicasOf ms.serviceId).length = 0
        rw [maxByIndex_eq_none hnone]
        rfl
      show c.registry.replicaCount ms.serviceId = _
      omega
    next r hr =>
      have hone := replicaCount_drainOf env (maxByIndex_mem hr)
      have hrest := ih (c.drainOf env ms r.id r.index)
      show ((c.drainOf env ms r.id r.index).drainDown env ms n).1.registry.replicaCount
        ms.serviceId = _
      omega

/-- **Step 3 of a turn** ends at the desired count, unless a launch failed; it goes down
only toward a desired count below the one it started at. -/
theorem reconcileTo_count (env : Env) (ms : ManagedService) (desired : Nat) (c : Controller) :
    let start := c.registry.replicaCount ms.serviceId
    let done := c.reconcileTo env ms start desired
    (done.1.registry.replicaCount ms.serviceId = desired ∨
      ∃ reason, .scaleUpDenied ms.serviceName reason ∈ done.2.2) ∧
    (start ≤ desired → start ≤ done.1.registry.replicaCount ms.serviceId) := by
  intro start done
  obtain ⟨hcount, hreached⟩ := launchUpTo_count env ms (desired - start) c
  have hend : done.1.registry.replicaCount ms.serviceId
      = (c.launchUpTo env ms (desired - start)).1.registry.replicaCount ms.serviceId
        - (start + (c.launchUpTo env ms (desired - start)).2.1 - desired) :=
    drainDown_count env ms _ _
  rcases hreached with hall | ⟨hless, reason, hdenied⟩
  · exact ⟨.inl (by omega), fun h => by omega⟩
  · exact ⟨.inr ⟨reason, List.mem_append_left _ hdenied⟩, fun h => by omega⟩

/-! ## §3. A turn and what it leaves alone. -/

theorem cooldowns_launchReplica (env : Env) (spec : LaunchSpec) (c : Controller) :
    (c.launchReplica env spec).1.cooldowns = c.cooldowns := by
  have hlaunched := launchReplica_launched env spec c
  generalize c.launchReplica env spec = result at hlaunched ⊢
  cases hlaunched <;> rfl

/-- The replicas and the cooldown of a service are as they were. -/
structure Untouched (serviceId : Uuid) (c c' : Controller) : Prop where
  replicas : c'.registry.replicasOf serviceId = c.registry.replicasOf serviceId
  cooldown : c'.cooldowns.lookup serviceId = c.cooldowns.lookup serviceId

theorem Untouched.refl (serviceId : Uuid) (c : Controller) : Untouched serviceId c c := ⟨rfl, rfl⟩

variable {serviceId : Uuid}

theorem Untouched.trans {a b : Controller} (hab : Untouched serviceId a b)
    (hbc : Untouched serviceId b c) : Untouched serviceId a c :=
  ⟨hbc.replicas.trans hab.replicas, hbc.cooldown.trans hab.cooldown⟩

theorem Untouched.of_steps (h : ReflTransGen (Untouched serviceId) c c') :
    Untouched serviceId c c' := by
  induction h with
  | refl => exact .refl serviceId c
  | tail _ hlast ih => exact ih.trans hlast

/-- The steps of other services do not touch a service. -/
theorem untouched_rules (env : Env) (serviceId : Uuid) :
    TurnRules env (·.serviceId ≠ serviceId) (Untouched serviceId) where
  launch := by
    intro c ms index hne _
    refine ⟨?_, congrArg _ (cooldowns_launchReplica env _ c)⟩
    have hlaunched := launchReplica_launched env (launchSpec ms index) c
    generalize c.launchReplica env (launchSpec ms index) = result at hlaunched ⊢
    cases hlaunched with
    | denied => rfl
    | notStarted => rfl
    | @unhealthy _ socket =>
      exact congrArg (List.filter _) (c.registry.remove_add ms.serviceId ms.deploymentId index
        socket ms.limits)
    | @healthy _ socket =>
      have hadd := c.registry.replicasOf_add_setState ms.serviceId ms.deploymentId index socket
        ms.limits .healthy serviceId
      rwa [if_neg hne, List.append_nil] at hadd
  drain := by
    intro c ms r hne hr
    obtain ⟨hmem, hservice⟩ := ReplicaRegistry.mem_replicasOf.mp hr
    refine ⟨?_, rfl⟩
    rw [replicasOf_drainOf]
    exact ReplicaRegistry.filter_replicasOf_of_ne hmem (hservice ▸ hne)
  note _ _ := ⟨rfl, rfl⟩
  watch _ _ hne := ⟨rfl, AList.lookup_insert_ne (Ne.symm hne)⟩

/-- **A turn leaves the other services alone.** -/
theorem tickService_untouched (env : Env) (hne : ms.serviceId ≠ serviceId) (nowS : Nat)
    (c : Controller) : Untouched serviceId c (c.tickService env nowS ms).1 :=
  .of_steps (tickService_steps (untouched_rules env serviceId) hne nowS c)

theorem tickServices_untouched (env : Env) {services : List ManagedService}
    (hne : ∀ ms ∈ services, ms.serviceId ≠ serviceId) (nowS : Nat) (c : Controller) :
    Untouched serviceId c (c.tickServices env nowS services).1 := by
  induction services generalizing c with
  | nil => exact .refl serviceId c
  | cons ms rest ih =>
    exact (tickService_untouched env (hne ms List.mem_cons_self) nowS c).trans
      (ih (fun m hm => hne m (List.mem_cons_of_mem _ hm)) _)

/-- The launch and drain loops do not touch the cooldowns. -/
theorem cooldown_rules (env : Env) :
    LoopRules env (fun _ => True) (fun c c' => c'.cooldowns = c.cooldowns) where
  launch _ _ := cooldowns_launchReplica env _ _
  drain _ _ := rfl
  note _ _ := rfl

theorem cooldowns_of_steps
    (h : ReflTransGen (fun c c' : Controller => c'.cooldowns = c.cooldowns) c c') :
    c'.cooldowns = c.cooldowns := by
  induction h with
  | refl => rfl
  | tail _ hlast ih => exact hlast.trans ih

/-! ## §4. What a turn reads, and what it decides. -/

/-- The time since which a service's cpu reading has called for fewer replicas, as the
cooldown has it. -/
def Controller.window (serviceId : Uuid) (c : Controller) : Option Nat :=
  ((c.cooldowns.lookup serviceId).getD CooldownState.default).belowSince

namespace Turn

/-- The replicas the turn starts with. -/
def count (t : Turn) : Nat := t.before.registry.replicaCount t.ms.serviceId

/-- The metrics as the turn reads them. -/
def usage (env : Env) (t : Turn) : ServiceUsage := env.usage t.before.calls t.ms.serviceId

/-- The turn obtains a sample: replicas run, all of them the target deployment, and a
cgroup read succeeds. -/
structure Sampled (env : Env) (t : Turn) : Prop where
  running : 1 ≤ t.count
  current : ∀ r ∈ t.before.registry.replicasOf t.ms.serviceId, r.deploymentId = t.ms.deploymentId
  live : 1 ≤ (t.usage env).liveReadings

/-- The idle branch: no floor, no request for longer than the timeout, and cpu below target. -/
def Idle (env : Env) (t : Turn) : Prop :=
  t.ms.policy.minReplicas = 0 ∧
    t.ms.policy.idleTimeoutS
      < ({ t.before with calls := t.before.calls + 1 } : Controller).idleSecs env t.ms.serviceId ∧
    (t.usage env).avgCpuPct < t.ms.policy.targetCpuPct

/-- A reading calls for more replicas than run: `⌈count · reading / target⌉`, as a `u32`,
is above the count, for the cpu or for the memory. -/
def CallsForMore (env : Env) (t : Turn) : Prop :=
  t.count < asU32 (ceilDiv (t.count * (t.usage env).avgCpuPct) t.ms.policy.targetCpuPct) ∨
    ∃ target, t.ms.policy.targetMemPct = some target ∧
      t.count < asU32 (ceilDiv (t.count * (t.usage env).avgMemPct) target)

/-- The cpu reading calls for fewer. -/
def CallsForFewer (env : Env) (t : Turn) : Prop :=
  desiredDown t.count (t.usage env).avgCpuPct t.ms.policy.targetCpuPct < t.count

/-- The state once the sample is taken and the cooldown set. -/
def noted (cd : CooldownState) (t : Turn) : Controller :=
  { t.before with
    cooldowns := t.before.cooldowns.insert t.ms.serviceId cd
    calls := t.before.calls + 1 }

/-- `desired_up` is above the count when a reading calls for more. -/
theorem lt_desiredUp_iff (env : Env) (t : Turn) :
    t.count < desiredUp t.count (t.usage env).avgCpuPct t.ms.policy.targetCpuPct
        (some (t.usage env).avgMemPct) t.ms.policy.targetMemPct ↔ t.CallsForMore env := by
  unfold desiredUp CallsForMore
  cases t.ms.policy.targetMemPct with
  | none =>
    simp only [Nat.max_zero, reduceCtorEq, false_and, exists_false, or_false]
    omega
  | some =>
    simp only [Option.some.injEq, exists_eq_left']
    omega

end Turn

/-- The ways a turn with a sample decides, each with the state it leaves. -/
inductive Decided (env : Env) (t : Turn) : Controller × Controller.TickDecision → Prop
  | idle (hidle : t.Idle env) :
      Decided env t ({ t.before with calls := t.before.calls + 1 }, .scaleToZero)
  | more (hbusy : ¬ t.Idle env) (hmore : t.CallsForMore env) :
      Decided env t (t.noted ⟨none⟩, .reconcile (clampLoop
        (desiredUp t.count (t.usage env).avgCpuPct t.ms.policy.targetCpuPct
          (some (t.usage env).avgMemPct) t.ms.policy.targetMemPct)
        t.ms.policy.minReplicas t.ms.policy.maxReplicas))
  | opens (hbusy : ¬ t.Idle env) (hmore : ¬ t.CallsForMore env) (hfewer : t.CallsForFewer env)
      (hwindow : t.before.window t.ms.serviceId = none) :
      Decided env t (t.noted ⟨some t.nowS⟩, .reconcile t.count)
  | waits {since : Nat} (hbusy : ¬ t.Idle env) (hmore : ¬ t.CallsForMore env)
      (hfewer : t.CallsForFewer env) (hwindow : t.before.window t.ms.serviceId = some since)
      (hearly : t.nowS - since < t.ms.policy.scaleDownCooldownS) :
      Decided env t (t.noted ⟨some since⟩, .reconcile t.count)
  | lowers {since : Nat} (hbusy : ¬ t.Idle env) (hmore : ¬ t.CallsForMore env)
      (hfewer : t.CallsForFewer env) (hwindow : t.before.window t.ms.serviceId = some since)
      (hlong : t.ms.policy.scaleDownCooldownS ≤ t.nowS - since) :
      Decided env t (t.noted ⟨some since⟩, .reconcile (clampLoop
        (desiredDown t.count (t.usage env).avgCpuPct t.ms.policy.targetCpuPct)
        t.ms.policy.minReplicas t.ms.policy.maxReplicas))
  | holds (hbusy : ¬ t.Idle env) (hmore : ¬ t.CallsForMore env)
      (hfewer : ¬ t.CallsForFewer env) :
      Decided env t (t.noted ⟨t.before.window t.ms.serviceId⟩, .reconcile t.count)

variable {t : Turn}

/-- **What a turn with a sample decides.** -/
theorem tickDecision_decided (h : t.Sampled env) :
    Decided env t (t.before.tickDecision env t.ms t.nowS t.count) := by
  have hrunning : ¬ t.count = 0 := Nat.ne_of_gt h.running
  have hlive : ¬ (env.usage t.before.calls t.ms.serviceId).liveReadings = 0 :=
    Nat.ne_of_gt h.live
  unfold Controller.tickDecision
  rw [if_neg hrunning]
  simp only
  rw [if_neg hlive]
  split
  next hidle => exact .idle hidle
  next hbusy =>
    have hbusy : ¬ t.Idle env := hbusy
    have hup := t.lt_desiredUp_iff env
    simp only [Controller.scaledCount]
    split
    next hmore => exact .more hbusy (hup.mp hmore)
    next hmore =>
      have hmore : ¬ t.CallsForMore env := fun hm => hmore (hup.mpr hm)
      split
      next hfewer =>
        have hfewer : t.CallsForFewer env := hfewer
        cases hwindow : t.before.window t.ms.serviceId with
        | none =>
          have hcd : (t.before.cooldowns.lookup t.ms.serviceId).getD CooldownState.default
              = ⟨none⟩ := congrArg CooldownState.mk hwindow
          rw [hcd]
          exact .opens hbusy hmore hfewer hwindow
        | some since =>
          have hcd : (t.before.cooldowns.lookup t.ms.serviceId).getD CooldownState.default
              = ⟨some since⟩ := congrArg CooldownState.mk hwindow
          rw [hcd]
          simp only [CooldownState.scaleDownAllowed, decide_eq_true_eq]
          split
          next hlong => exact .lowers hbusy hmore hfewer hwindow hlong
          next hearly => exact .waits hbusy hmore hfewer hwindow (Nat.lt_of_not_le hearly)
      next hfewer => exact .holds hbusy hmore hfewer

/-! ## §5. A turn toward a count. -/

theorem find?_old_eq_none
    (h : ∀ r ∈ c.registry.replicasOf ms.serviceId, r.deploymentId = ms.deploymentId) :
    (c.registry.replicasOf ms.serviceId).find? (·.deploymentId ≠ ms.deploymentId) = none :=
  List.find?_eq_none.mpr fun r hr => by simp [h r hr]

/-- A turn that decides for a count, from the state its decision leaves. -/
theorem tickService_reconcile {desired : Nat}
    (hcurrent : ∀ r ∈ t.before.registry.replicasOf t.ms.serviceId,
      r.deploymentId = t.ms.deploymentId)
    (hdecision : t.before.tickDecision env t.ms t.nowS t.count = (c, .reconcile desired)) :
    let done := c.reconcileTo env t.ms t.count desired
    t.before.tickService env t.nowS t.ms
      = (done.1.setDesired env t.ms.serviceId done.2.1, done.2.2) := by
  intro done
  unfold Controller.tickService
  simp only
  rw [find?_old_eq_none hcurrent]
  simp only
  have hdecision : t.before.tickDecision env t.ms t.nowS
      (t.before.registry.replicaCount t.ms.serviceId) = (c, .reconcile desired) := hdecision
  rw [hdecision]
  rfl

end Denia.Autoscale
