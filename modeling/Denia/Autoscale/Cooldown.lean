/-
  Denia.Autoscale.Cooldown — is a scale-down preceded by an uninterrupted low period?

  A cooldown window opens at the first cpu reading that calls for fewer replicas, and a
  scale-down waits until the window has been open for the cooldown.  The window is CLOSED
  by one branch only, a reading that calls for more: readings at target, idle drains,
  outages, rollouts and cold starts pass it by.

  Main results:
    * `window_after` — what a turn does to the window of its service,
    * `scaleDown_uninterrupted` — when it is, `scaleDown_interrupted` — low, at target, low.
-/
import Denia.Autoscale.Bounds

namespace Denia.Autoscale

open Relation

/-- The turn lowers the count through the metric scale-down branch. -/
structure Turn.LowersByMetric (env : Env) (t : Turn) : Prop where
  sampled : t.Sampled env
  busy : ¬ t.Idle env
  notMore : ¬ t.CallsForMore env
  fewer : t.CallsForFewer env
  lowered : (t.after env).registry.replicaCount t.ms.serviceId < t.count

variable {env : Env} {t : Turn} {c : Controller}

/-! ## §1. What a turn does to the cooldowns. -/
/-- A turn of a rollout sets no cooldown. -/
theorem cooldowns_after_rollout (hold : ∃ r ∈ t.before.registry.replicasOf t.ms.serviceId,
      r.deploymentId ≠ t.ms.deploymentId) : (t.after env).cooldowns = t.before.cooldowns := by
  unfold Turn.after Controller.tickService
  simp only
  split
  next old hfind =>
    exact cooldowns_of_steps
      (rolloutStep_steps (cooldown_rules env) trivial _ (List.mem_of_find?_eq_some hfind))
  next hnone =>
    obtain ⟨r, hr, hne⟩ := hold
    exact absurd (by simpa using hne) (List.find?_eq_none.mp hnone r hr)

/-- Past the rollout the cooldowns are what the decision left. -/
theorem cooldowns_after_decision (env : Env)
    (hcurrent : ∀ r ∈ t.before.registry.replicasOf t.ms.serviceId,
      r.deploymentId = t.ms.deploymentId) : (t.after env).cooldowns
      = (t.before.tickDecision env t.ms t.nowS t.count).1.cooldowns := by
  have hcount : t.before.registry.replicaCount t.ms.serviceId = t.count := rfl
  unfold Turn.after Controller.tickService
  simp only [hcount]
  rw [find?_old_eq_none hcurrent]
  simp only
  split
  next c count h =>
    rw [h]
    rfl
  next c h =>
    rw [h]
    show (c.drainAllReplicas env t.ms).cooldowns = c.cooldowns
    exact cooldowns_of_steps (drainAllReplicas_steps (cooldown_rules env) trivial c)
  next c desired h =>
    rw [h]
    set launched := c.launchUpTo env t.ms (desired - t.count) with hlaunched
    show (launched.1.drainDown env t.ms (t.count + launched.2.1 - desired)).1.cooldowns = _
    rw [cooldowns_of_steps (drainDown_steps (cooldown_rules env) trivial _ launched.1), hlaunched]
    exact cooldowns_of_steps (launchUpTo_steps (cooldown_rules env) trivial _ c)

/-- A turn without a sample sets no cooldown. -/
theorem cooldowns_after_unsampled (h : ¬ t.Sampled env) :
    (t.after env).cooldowns = t.before.cooldowns := by
  by_cases hcurrent : ∀ r ∈ t.before.registry.replicasOf t.ms.serviceId,
      r.deploymentId = t.ms.deploymentId
  · rw [cooldowns_after_decision env hcurrent]
    unfold Controller.tickDecision
    split
    · split <;> rfl
    · next hrunning =>
      simp only
      split
      · rfl
      · next hlive =>
        exact absurd ⟨Nat.one_le_iff_ne_zero.mpr hrunning, hcurrent,
          Nat.one_le_iff_ne_zero.mpr hlive⟩ h
  · refine cooldowns_after_rollout ?_
    simpa using hcurrent

theorem window_of_cooldowns {c' : Controller} (h : c'.cooldowns = c.cooldowns) (serviceId : Uuid) :
    c'.window serviceId = c.window serviceId := by
  unfold Controller.window
  rw [h]

theorem window_noted (cd : CooldownState) (t : Turn) :
    (t.noted cd).window t.ms.serviceId = cd.belowSince := by
  show ((AList.lookup t.ms.serviceId (t.before.cooldowns.insert t.ms.serviceId cd)).getD
    CooldownState.default).belowSince = _
  rw [AList.lookup_insert]
  rfl

/-- **What a turn does to the window of its service**: it stays as it was, unless a busy
turn's sample calls for more (it is closed) or for fewer with no window open (one opens). -/
theorem window_after (env : Env) (t : Turn) :
    (t.after env).window t.ms.serviceId = t.before.window t.ms.serviceId ∧
        (t.Sampled env → t.Idle env ∨ ¬ t.CallsForMore env) ∨
      (t.after env).window t.ms.serviceId = none ∨
      (t.after env).window t.ms.serviceId = some t.nowS ∧ t.Sampled env ∧ t.CallsForFewer env := by
  by_cases hsampled : t.Sampled env
  · have hafter := cooldowns_after_decision env hsampled.current
    have hdecided := tickDecision_decided hsampled
    generalize t.before.tickDecision env t.ms t.nowS t.count = result at hafter hdecided
    have hwindow := window_of_cooldowns hafter t.ms.serviceId
    cases hdecided with
    | idle hidle => exact .inl ⟨hwindow, fun _ => .inl hidle⟩
    | more => exact .inr (.inl (hwindow.trans (window_noted _ t)))
    | opens _ _ hfewer =>
      exact .inr (.inr ⟨hwindow.trans (window_noted _ t), hsampled, hfewer⟩)
    | waits _ hmore _ hopen =>
      exact .inl ⟨(hwindow.trans (window_noted _ t)).trans hopen.symm, fun _ => .inr hmore⟩
    | lowers _ hmore _ hopen =>
      exact .inl ⟨(hwindow.trans (window_noted _ t)).trans hopen.symm, fun _ => .inr hmore⟩
    | holds _ hmore =>
      exact .inl ⟨hwindow.trans (window_noted _ t), fun _ => .inr hmore⟩
  · exact .inl ⟨window_of_cooldowns (cooldowns_after_unsampled hsampled) _,
      fun h => absurd h hsampled⟩

/-- A metric scale-down has had its window open for the cooldown. -/
theorem window_of_lowersByMetric (h : t.LowersByMetric env) :
    ∃ since, t.before.window t.ms.serviceId = some since ∧
      t.ms.policy.scaleDownCooldownS ≤ t.nowS - since := by
  have hdecided := tickDecision_decided h.sampled
  generalize hdecision : t.before.tickDecision env t.ms t.nowS t.count = result at hdecided
  -- a turn that goes for the count it has does not go below it
  have hheld : ∀ c : Controller, c.registry = t.before.registry →
      t.before.tickDecision env t.ms t.nowS t.count = (c, .reconcile t.count) → False := by
    intro c hreg hdecision
    have hturn := tickService_reconcile h.sampled.current hdecision
    have hstart : t.count = c.registry.replicaCount t.ms.serviceId := by
      rw [hreg]
      rfl
    have hfloor := (reconcileTo_count env t.ms t.count c).2 (Nat.le_of_eq hstart.symm)
    rw [← hstart] at hfloor
    have hlowered := h.lowered
    unfold Turn.after at hlowered
    rw [hturn] at hlowered
    exact absurd hlowered (Nat.not_lt_of_le hfloor)
  cases hdecided with
  | idle hidle => exact absurd hidle h.busy
  | more _ hmore => exact absurd hmore h.notMore
  | opens => exact (hheld (t.noted _) rfl hdecision).elim
  | waits => exact (hheld (t.noted _) rfl hdecision).elim
  | lowers _ _ _ hwindow hlong => exact ⟨_, hwindow, hlong⟩
  | holds => exact (hheld (t.noted _) rfl hdecision).elim

/-! ## §2. Runs. -/

/-- A low period of the service, from a turn `first` on: what was sampled at it and since
called for fewer replicas. -/
def LowSince (env : Env) (serviceId : Uuid) (since : Nat) (past : List Turn) : Prop :=
  ∃ earlier first between, past = earlier ++ first :: between ∧
    first.ms.serviceId = serviceId ∧ first.nowS = since ∧ first.Sampled env ∧
    ∀ u ∈ first :: between, u.ms.serviceId = serviceId → u.Sampled env → u.CallsForFewer env

variable {serviceId : Uuid} {past : List Turn}

/-- One more turn that does not interrupt it. -/
theorem LowSince.extend {since : Nat} (h : LowSince env serviceId since past)
    (ht : t.ms.serviceId = serviceId → t.Sampled env → t.CallsForFewer env) :
    LowSince env serviceId since (past ++ [t]) := by
  obtain ⟨earlier, first, between, rfl, hservice, htime, hsampled, hlow⟩ := h
  refine ⟨earlier, first, between ++ [t], ?_, hservice, htime, hsampled, ?_⟩
  · rw [List.append_assoc, List.cons_append]
  · intro u hu
    rw [← List.cons_append] at hu
    rcases List.mem_append.mp hu with hu | hu
    · exact hlow u hu
    · rwa [List.mem_singleton.mp hu]

/-- An open window tells of a low period. -/
def WindowTells (env : Env) (serviceId : Uuid) (past : List Turn) (c : Controller) : Prop :=
  ∀ since, c.window serviceId = some since → LowSince env serviceId since past

/-- A sample that meets an open window calls for fewer replicas, or closes it. -/
def Turn.KeepsLow (env : Env) (serviceId : Uuid) (t : Turn) : Prop :=
  t.ms.serviceId = serviceId → t.Sampled env → t.before.window serviceId ≠ none →
    t.CallsForFewer env ∨ ¬ t.Idle env ∧ t.CallsForMore env

/-- **One turn keeps the window truthful.** -/
theorem windowTells_turn (hinv : WindowTells env serviceId past t.before)
    (hkeeps : t.KeepsLow env serviceId) :
    WindowTells env serviceId (past ++ [t]) (t.after env) := by
  intro since hsince
  by_cases hservice : t.ms.serviceId = serviceId
  · rcases window_after env t with ⟨hsame, hreading⟩ | hclosed | ⟨hopens, hsampled, hfewer⟩
    · -- the window is the one that was open before
      rw [hservice] at hsame
      rw [hsame] at hsince
      refine (hinv since hsince).extend fun _ hsampled => ?_
      have hopen : t.before.window serviceId ≠ none := by simp [hsince]
      rcases hkeeps hservice hsampled hopen with hfewer | ⟨hbusy, hmore⟩
      · exact hfewer
      · rcases hreading hsampled with hidle | hnot
        · exact absurd hidle hbusy
        · exact absurd hmore hnot
    · rw [hservice, hsince] at hclosed
      cases hclosed
    · rw [hservice, hsince] at hopens
      injection hopens with hopens
      refine ⟨past, t, [], rfl, hservice, hopens.symm, hsampled, ?_⟩
      intro u hu _ _
      rwa [List.mem_singleton.mp hu]
  · have hsame : (t.after env).window serviceId = t.before.window serviceId := by
      unfold Controller.window
      rw [show (t.after env).cooldowns.lookup serviceId = _ from
        (tickService_untouched env hservice t.nowS t.before).cooldown]
    rw [hsame] at hsince
    exact (hinv since hsince).extend fun h => absurd h hservice

/-- The other operations set no cooldown. -/
theorem cooldowns_run (op : Op) (htick : op.isTick = false) :
    (op.run env c).cooldowns = c.cooldowns := by
  cases hboot : op.isBoot with
  | false =>
    exact cooldowns_of_steps
      (op.run_of_loop (cooldown_rules env) htick hboot (fun _ _ => trivial) c)
  | true =>
    cases op with
    | tick | activateOne | reconcileService | drainAll => cases hboot
    | reconcileBoot services =>
      have hadopt : ∀ (running : List RuntimeStatus) (c : Controller),
          (c.adoptRunning env services running).1.cooldowns = c.cooldowns := by
        intro running
        induction running with
        | nil => intro c; rfl
        | cons status rest ih =>
          intro c
          refine (ih (c.adoptOrStop env services status).1).trans ?_
          unfold Controller.adoptOrStop Controller.reserve
          simp only
          split
          · rfl
          · split
            · cases c.ledger.tryReserve _ <;> rfl
            · rfl
      exact (cooldowns_of_steps (topUpAll_steps (cooldown_rules env) (fun _ _ => trivial)
        _)).trans (hadopt _ { c with calls := c.calls + 1 })

/-- **Scale-down only after an uninterrupted low period**, in a run in which every sample
that meets an open window of the service calls for fewer replicas or closes it. -/
theorem scaleDown_uninterrupted (env : Env) (c : Controller) (ops : List Op) (serviceId : Uuid)
    (hclosed : c.window serviceId = none) (htimes : (runTurns env c ops).Pairwise (·.nowS ≤ ·.nowS))
    (hkeeps : ∀ t ∈ runTurns env c ops, t.KeepsLow env serviceId) :
    ∀ past t later, runTurns env c ops = past ++ t :: later → t.ms.serviceId = serviceId →
      t.LowersByMetric env →
      ∃ earlier first between, past = earlier ++ first :: between ∧
        first.ms.serviceId = serviceId ∧
        first.nowS + t.ms.policy.scaleDownCooldownS ≤ t.nowS ∧ first.Sampled env ∧
        ∀ u ∈ first :: between ++ [t], u.ms.serviceId = serviceId → u.Sampled env →
          u.CallsForFewer env := by
  intro past t later heq hservice hlowers
  have hstart : WindowTells env serviceId [] c := by
    intro since hsince
    simp [hclosed] at hsince
  have hprune : ∀ past c services, WindowTells env serviceId past c →
      WindowTells env serviceId past (c.pruneCooldowns services) := by
    intro past c services hinv since hsince
    refine hinv since ?_
    unfold Controller.window Controller.pruneCooldowns at hsince
    simp only [Lib.lookup_restrict] at hsince
    split at hsince
    · exact hsince
    · cases hsince
  have hother : ∀ past c (op : Op), True → op.isTick = false → WindowTells env serviceId past c →
      WindowTells env serviceId past (op.run env c) := by
    intro past c op _ htick hinv since hsince
    exact hinv since ((window_of_cooldowns (cooldowns_run op htick) serviceId).symm.trans hsince)
  have hinv := (runTurns_invariant (fun _ _ => windowTells_turn) hprune hother ops
    (fun _ _ => trivial) [] c hstart hkeeps).2 past t later heq
  obtain ⟨since, hopen, hlong⟩ := window_of_lowersByMetric hlowers
  rw [hservice] at hopen
  obtain ⟨earlier, first, between, hpast, hfirst, htime, hsampled, hlow⟩ :=
    hinv since hopen
  rw [List.nil_append] at hpast
  refine ⟨earlier, first, between, hpast, hfirst, ?_, hsampled, ?_⟩
  · -- the window opened no later than now
    have hle : first.nowS ≤ t.nowS := by
      rw [heq, hpast] at htimes
      rw [List.append_assoc, List.pairwise_append] at htimes
      have hcons := List.pairwise_cons.mp htimes.2.1
      exact hcons.1 t (List.mem_append_right _ List.mem_cons_self)
    omega
  · intro u hu
    rcases List.mem_append.mp hu with hu | hu
    · exact hlow u hu
    · rw [List.mem_singleton.mp hu]
      exact fun _ _ => hlowers.fewer

/-! ## §3. Low, at target, low. -/

/-- Three replicas of `web`, with no window open. -/
def trio : Controller := runOps calmEnv quietHost [.tick [boundedWeb 3 3 (by decide)] 0]

/-- `web`, which may now run on one replica. -/
def scalableWeb : ManagedService := web ⟨500, 1024⟩

/-- Three ticks. -/
def cooldownTicks : List Op :=
  [.tick [scalableWeb] 0, .tick [scalableWeb] 150, .tick [scalableWeb] 300]

/-- The cpu is at 10 per cent, but for the sample of the second tick, which is at target. -/
def spikeEnv : Env :=
  { calmEnv with usage := fun n _ => ⟨if n = trio.calls + 2 then 80 else 10, 0, 1⟩ }

/-- The cpu is at 10 per cent throughout. -/
def lowEnv : Env := { calmEnv with usage := fun _ _ => ⟨10, 0, 1⟩ }

/-- The last of the three turns of a run of `cooldownTicks`. -/
def lastTurn (env : Env) : Turn :=
  ⟨300, scalableWeb, runOps env trio (cooldownTicks.take 2)⟩

/-- The turns before it. -/
def firstTurns (env : Env) : List Turn :=
  [⟨0, scalableWeb, trio⟩,
    ⟨150, scalableWeb, runOps env trio (cooldownTicks.take 1)⟩]

theorem runTurns_cooldownTicks (env : Env) :
    runTurns env trio cooldownTicks = firstTurns env ++ [lastTurn env] := rfl

/-- In both runs the turn at 300 lowers the count. -/
theorem lastTurn_lowers (h : env = spikeEnv ∨ env = lowEnv) :
    (lastTurn env).LowersByMetric env := by
  rcases h with rfl | rfl
  all_goals
    refine ⟨⟨by decide +kernel, by decide +kernel, by decide +kernel⟩,
      fun hidle => absurd hidle.1 (by decide), ?_, ?_, by decide +kernel⟩
    · rintro (hcpu | ⟨target, hmem, -⟩)
      · exact absurd hcpu (by decide +kernel)
      · cases hmem
    · unfold Turn.CallsForFewer
      decide +kernel

/-- **The defect.**  The cpu is low at 0, at target at 150 and low at 300: the window that
opened at 0 is still open, and the tick at 300 scales down after no low period at all. -/
theorem scaleDown_interrupted :
    runTurns spikeEnv trio cooldownTicks = firstTurns spikeEnv ++ [lastTurn spikeEnv] ∧
      (runTurns spikeEnv trio cooldownTicks).Pairwise (·.nowS ≤ ·.nowS) ∧
      trio.window 7 = none ∧ (lastTurn spikeEnv).LowersByMetric spikeEnv ∧
      ¬ ∃ earlier first between, firstTurns spikeEnv = earlier ++ first :: between ∧
        first.ms.serviceId = 7 ∧
        first.nowS + (lastTurn spikeEnv).ms.policy.scaleDownCooldownS ≤ (lastTurn spikeEnv).nowS ∧
        ∀ u ∈ first :: between ++ [lastTurn spikeEnv], u.ms.serviceId = 7 → u.Sampled spikeEnv →
          u.CallsForFewer spikeEnv := by
  refine ⟨rfl, ?_, by decide +kernel, lastTurn_lowers (.inl rfl), ?_⟩
  · rw [runTurns_cooldownTicks]
    decide
  · intro hlow
    obtain ⟨earlier, first, between, hpast, -, -, hall⟩ := hlow
    have hmid : (⟨150, scalableWeb, runOps spikeEnv trio (cooldownTicks.take 1)⟩ : Turn) ∈
        first :: between := by
      -- wherever the period starts, it includes the turn at 150
      cases earlier with
      | nil =>
        injection hpast with _ htail
        rw [← htail]
        exact List.mem_cons_of_mem _ List.mem_cons_self
      | cons x earlier =>
        injection hpast with _ htail
        cases earlier with
        | nil =>
          injection htail with hsecond _
          rw [← hsecond]
          exact List.mem_cons_self
        | cons y earlier =>
          injection htail with _ htail
          cases earlier <;> cases htail
    have hfewer := hall _ (List.mem_append_left _ hmid) rfl
      ⟨by decide +kernel, by decide +kernel, by decide +kernel⟩
    unfold Turn.CallsForFewer at hfewer
    exact absurd hfewer (by decide +kernel)

/-- With the cpu low throughout, the scale-down at 300 ends a low period from 0 on. -/
theorem scaleDown_uninterrupted_web : (lastTurn lowEnv).LowersByMetric lowEnv ∧
      ∃ earlier first between, firstTurns lowEnv = earlier ++ first :: between ∧
        first.ms.serviceId = 7 ∧
        first.nowS + (lastTurn lowEnv).ms.policy.scaleDownCooldownS ≤ (lastTurn lowEnv).nowS ∧
        first.Sampled lowEnv ∧
        ∀ u ∈ first :: between ++ [lastTurn lowEnv], u.ms.serviceId = 7 → u.Sampled lowEnv →
          u.CallsForFewer lowEnv := by
  have hlowers : (lastTurn lowEnv).LowersByMetric lowEnv := lastTurn_lowers (.inr rfl)
  have hkeeps : ∀ t ∈ runTurns lowEnv trio cooldownTicks, t.KeepsLow lowEnv 7 := by
    have hlow : ∀ t ∈ firstTurns lowEnv ++ [lastTurn lowEnv],
        desiredDown t.count (t.usage lowEnv).avgCpuPct t.ms.policy.targetCpuPct < t.count := by
      decide +kernel
    intro t ht _ _ _
    exact .inl (hlow t ht)
  exact ⟨hlowers, scaleDown_uninterrupted lowEnv trio cooldownTicks 7 (by decide +kernel)
    (by rw [runTurns_cooldownTicks]; decide) hkeeps _ _ [] rfl rfl hlowers⟩

end Denia.Autoscale
