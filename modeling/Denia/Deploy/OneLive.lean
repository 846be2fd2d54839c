/-
  Denia.Deploy.OneLive — deploys and stops of ONE service side by side: is there one
  live row, and is it the promoted one?

  Main results: `daemon_one_live`, for every run whose calls meet the guard; and
  `daemon_two_healthy`, two runs that do not.
-/
import Denia.Deploy.LiveInvariant

namespace Denia.Deploy

open Autoscale Lib

/-! ## §1. Runs. -/

variable {serviceId : Uuid} {σ : Daemon}

theorem Inv.accept_stop (h : Inv serviceId σ) (routesOnly : Bool) :
    Inv serviceId (σ.accept σ.world (.stop (.start serviceId routesOnly))) := by
  have hdeploy : ∀ j t, (σ.tasks.insert σ.accepted (.stop (.start serviceId routesOnly))).lookup j
      = some (.deploy t) → σ.tasks.lookup j = some (.deploy t) := by
    intro j t hj
    rcases lookup_insert_cases hj with ⟨rfl, ht⟩ | ⟨-, hj⟩
    · cases ht
    · exact hj
  refine ⟨h.fresh, h.healthy, ?_, ?_, ?_, ?_, ?_⟩
  · intro d service status hd hrow
    obtain ⟨h1, h2, h3⟩ := h.promoted d service status hd hrow
    refine ⟨h1, h2, fun hs => ?_⟩
    obtain ⟨j, v, hj, hv⟩ := h3 hs
    have hne : j ≠ σ.accepted := Nat.ne_of_lt (Numbered.lt h.numbered hj)
    exact ⟨j, v, (AList.lookup_insert_ne hne).trans hj, hv⟩
  · intro j t hj
    obtain ⟨hs, hp, hlt, hcand⟩ := h.deploys j t (hdeploy j t hj)
    refine ⟨hs, hp, hlt, fun hun => ?_⟩
    have hcand := hcand hun
    refine ⟨hcand.unpromoted, hcand.early, fun k v hk => ?_⟩
    rcases lookup_insert_cases hk with ⟨rfl, hv⟩ | ⟨-, hk⟩
    · injection hv with hv
      rw [← hv]
      simp [StopTask.start, StopPc.holds]
    · exact hcand.unheld k v hk
  · intro j k t t' hj hk heq
    exact h.distinct j k t t' (hdeploy j t hj) (hdeploy k t' hk) heq
  · intro j v hj
    rcases lookup_insert_cases hj with ⟨rfl, hv⟩ | ⟨-, hj⟩
    · injection hv with hv
      rw [← hv]
      exact ⟨rfl, fun d hd => by cases hd⟩
    · exact h.stops j v hj
  · exact Numbered.insert h.numbered _

theorem Inv.accept_deploy (h : Inv serviceId σ) {service : ServiceConfig}
    (request : DeploymentRequest) (hservice : service.id = serviceId) :
    Inv serviceId (σ.accept (σ.world.onStore fun _ => (σ.world.store.createDeployment serviceId).1)
      (.deploy (.runWithDeps (σ.world.store.createDeployment serviceId).2 service request))) := by
  set db := σ.world.store with hdb
  have hrow : ∀ d, (db.createDeployment serviceId).1.row d
      = if d = db.nextId then some (serviceId, .pending) else db.row d :=
    row_createDeployment db serviceId
  have hrow_ne : ∀ d, d ≠ db.nextId → (db.createDeployment serviceId).1.row d = db.row d := by
    intro d hd
    rw [hrow, if_neg hd]
  have hstop : ∀ j v, (σ.tasks.insert σ.accepted (.deploy (.runWithDeps db.nextId service request))
      ).lookup j = some (.stop v) → σ.tasks.lookup j = some (.stop v) := by
    intro j v hj
    rcases lookup_insert_cases hj with ⟨rfl, hv⟩ | ⟨-, hj⟩
    · cases hv
    · exact hj
  have hpromoted_ne : ∀ d, db.promotedDeployment serviceId = some d → d ≠ db.nextId :=
    fun d hd => Nat.ne_of_lt (h.fresh.2 d hd)
  -- only the row of the new id is another one, and no task has that id
  refine ⟨⟨?_, ?_⟩, ?_, ?_, ?_, ?_, ?_, ?_⟩
  · intro d hd
    have hlt : db.nextId < d := hd
    exact (hrow_ne d (Nat.ne_of_gt hlt)).trans (h.fresh.1 d (Nat.le_of_lt hlt))
  · intro d hd
    exact Nat.lt_succ_of_lt (h.fresh.2 d hd)
  · intro d hd
    have hd : (db.createDeployment serviceId).1.row d = some (serviceId, .healthy) := hd
    rw [hrow] at hd
    split at hd
    next => cases hd
    next => exact h.healthy d hd
  · intro d service' status hd hst
    have hst := (hrow_ne d (hpromoted_ne d hd)).symm.trans hst
    obtain ⟨h1, h2, h3⟩ := h.promoted d service' status hd hst
    refine ⟨h1, h2, fun hs => ?_⟩
    obtain ⟨j, v, hj, hv⟩ := h3 hs
    have hne : j ≠ σ.accepted := Nat.ne_of_lt (Numbered.lt h.numbered hj)
    exact ⟨j, v, (AList.lookup_insert_ne hne).trans hj, hv⟩
  · intro j t hj
    rcases lookup_insert_cases hj with ⟨rfl, ht⟩ | ⟨-, hj⟩
    · cases ht
      refine ⟨hservice, DeployTask.onPath_of_free rfl, Nat.lt_succ_self _, fun _ => ?_⟩
      refine ⟨fun hp => hpromoted_ne _ hp rfl, fun service' status hst => ?_,
        fun k v hk hheld => ?_⟩
      · have hst := (hrow db.nextId).symm.trans hst
        rw [if_pos rfl] at hst
        injection hst with hst
        injection hst with _ hst
        exact .inl hst.symm
      · exact Nat.lt_irrefl _ ((h.stops k v (hstop k v hk)).2 _ hheld)
    · obtain ⟨hs, hp, hlt, hcand⟩ := h.deploys j t hj
      refine ⟨hs, hp, Nat.lt_succ_of_lt hlt, fun hun => ?_⟩
      have hcand := hcand hun
      refine ⟨hcand.unpromoted, fun service' status hst => ?_, fun k v hk =>
        hcand.unheld k v (hstop k v hk)⟩
      exact hcand.early service' status ((hrow_ne _ (Nat.ne_of_lt hlt)).symm.trans hst)
  · intro j k t t' hj hk heq
    rcases lookup_insert_cases hj with ⟨rfl, ht⟩ | ⟨-, hj⟩ <;>
      rcases lookup_insert_cases hk with ⟨hk', ht'⟩ | ⟨-, hk⟩
    · exact hk'
    · cases ht
      have hlt := (h.deploys k t' hk).2.2.1
      exact absurd heq.symm (Nat.ne_of_lt hlt)
    · subst hk'
      cases ht'
      have hlt := (h.deploys j t hj).2.2.1
      exact absurd heq (Nat.ne_of_lt hlt)
    · exact h.distinct j k t t' hj hk heq
  · intro j v hj
    obtain ⟨hs, hheld⟩ := h.stops j v (hstop j v hj)
    exact ⟨hs, fun d hd => Nat.lt_succ_of_lt (hheld d hd)⟩
  · exact Numbered.insert h.numbered _

/-- One safe turn keeps the invariant. -/
theorem Inv.step {σ' : Daemon} {turn : Turn} (h : Inv serviceId σ)
    (hsafe : SafeTurn serviceId σ turn) (hstep : σ.step serviceId turn = some σ') :
    Inv serviceId σ' := by
  unfold Daemon.step at hstep
  split at hstep
  next service request =>
    split at hstep <;> cases hstep
    next hservice => exact h.accept_deploy request hservice
  next routesOnly =>
    cases hstep
    exact h.accept_stop routesOnly
  next i answer =>
    split at hstep
    next => cases hstep
    next t ht =>
      obtain ⟨⟨w', t'⟩, hcall, rfl⟩ := Option.map_eq_some_iff.mp hstep
      exact h.deploy_call ht (hsafe _ ht) hcall
    next u hu =>
      obtain ⟨⟨w', u'⟩, hcall, rfl⟩ := Option.map_eq_some_iff.mp hstep
      exact h.stop_call hu (hsafe _ hu) hcall

/-- **One live deployment.**  From a world with one live row, in every run whose calls
are all safe, every state without a deploy or stop in flight has one live row. -/
theorem daemon_one_live {serviceId : Uuid} {w : World} {turns : List Turn} {σ : Daemon}
    (hlive : OneLive serviceId w.store) (hfresh : FreshIds serviceId w.store)
    (hsafe : Guarded (Daemon.step serviceId) (SafeTurn serviceId) ⟨w, ∅, 0⟩ turns)
    (hrun : exec (Daemon.step serviceId) ⟨w, ∅, 0⟩ turns = some σ) (hquiet : σ.Quiet) :
    OneLive serviceId σ.world.store :=
  (exec_invariant (Inv serviceId) (fun _ _ _ h hs hstep => h.step hs hstep)
    (Inv.of_oneLive hlive hfresh) hsafe hrun).oneLive hquiet

/-! ## §2. Two deploys of one service. -/

/-- The calls of a deploy that succeeds, up to its last one. -/
def wireUp (task : Nat) : List Turn :=
  [.ok, .acquired "sha256:a", .ok, .ok, .ok, .ok, .started "/run/shop.sock", .ok, .ok, .ok, .ok,
    .ok].map (.call task)

/-- Both deploys are wired up before either writes `Healthy`. -/
def shuffledTurns : List Turn :=
  List.replicate 2 (.acceptDeploy (.plain 1 "shop") .externalImage) ++
    wireUp 0 ++ wireUp 1 ++ [.call 1 .ok, .call 0 .ok]

/-- `Task.finished`, as a test. -/
def Task.isDone : Task → Bool
  | .deploy t => match t.pc with
    | .done _ => true
    | _ => false
  | .stop t => match t.pc with
    | .done _ => true
    | _ => false

theorem quiet_of_isDone (h : σ.tasks.entries.all fun e => e.2.isDone) : σ.Quiet := by
  intro i task hi
  have hdone := List.all_eq_true.mp h ⟨i, task⟩ (AList.mem_lookup_iff.mp hi)
  cases task with
  | deploy t =>
    cases hpc : t.pc with
    | done r => exact ⟨r, hpc⟩
    | _ => simp [Task.isDone, hpc] at hdone
  | stop u =>
    cases hpc : u.pc with
    | done r => exact ⟨r, hpc⟩
    | _ => simp [Task.isDone, hpc] at hdone

/-- What a run left: are all tasks done, and the two rows. -/
def shopRows (σ : Daemon) :
    Bool × Option (Uuid × DeploymentStatus) × Option (Uuid × DeploymentStatus) :=
  (σ.tasks.entries.all fun e => e.2.isDone, σ.world.store.row 3, σ.world.store.row 4)

theorem idleWorld_oneLive : OneLive 1 idleWorld.store ∧ FreshIds 1 idleWorld.store := by
  have hrow : ∀ d, idleWorld.store.row d = none := fun _ => rfl
  have hpromoted : idleWorld.store.promotedDeployment 1 = none := rfl
  refine ⟨⟨?_, ?_, ?_⟩, fun d _ => hrow d, ?_⟩
  · intro d d' hd
    simp [hrow] at hd
  · intro d hd
    simp [hrow] at hd
  · intro d service status hd
    simp [hpromoted] at hd
  · intro d hd
    simp [hpromoted] at hd

/-- The calls of a deploy whose promotion fails between its two statements. -/
def halfPromote (task : Nat) : List Turn :=
  (wireUp task).take 8 ++
    [.halfDone "disk I/O error", .stopped .stopped, .ok, .ok].map (.call task)

/-- A deploy, and a redeploy whose promotion fails halfway. -/
def halfPromotedTurns : List Turn :=
  (.acceptDeploy (.plain 1 "shop") .externalImage :: wireUp 0) ++ [.call 0 .ok] ++
    .acceptDeploy (.plain 1 "shop") .externalImage :: halfPromote 1

/-- **The defect.**  Two deploys that are both wired up before either writes its
status end with two `Healthy` rows, of which one is promoted.  And a redeploy whose promotion
fails halfway leaves the promoted row inactive, with no other deploy around. -/
theorem daemon_two_healthy : OneLive 1 idleWorld.store ∧ FreshIds 1 idleWorld.store ∧
      (∃ σ, exec (Daemon.step 1) ⟨idleWorld, ∅, 0⟩ shuffledTurns = some σ ∧ σ.Quiet ∧
        σ.world.store.row 3 = some (1, .healthy) ∧ σ.world.store.row 4 = some (1, .healthy) ∧
        ¬ OneLive 1 σ.world.store) ∧
      ∃ σ, exec (Daemon.step 1) ⟨idleWorld, ∅, 0⟩ halfPromotedTurns = some σ ∧ σ.Quiet ∧
        σ.world.store.row 3 = some (1, .inactive) ∧
        σ.world.store.promotedDeployment 1 = some 3 ∧ ¬ OneLive 1 σ.world.store := by
  refine ⟨idleWorld_oneLive.1, idleWorld_oneLive.2, exists_run
    (fun σ => shopRows σ = (true, some (1, .healthy), some (1, .healthy))) (by decide +kernel)
    fun σ _ hrows => ?_, exists_run
    (fun σ => shopRows σ = (true, some (1, .inactive), some (1, .failed)) ∧
      σ.world.store.promotedDeployment 1 = some 3) (by decide +kernel)
    fun σ _ ⟨hrows, hpromoted⟩ => ?_⟩
  · simp only [shopRows, Prod.mk.injEq] at hrows
    obtain ⟨hdone, h3, h4⟩ := hrows
    refine ⟨quiet_of_isDone hdone, h3, h4, fun hlive => ?_⟩
    exact absurd (hlive.unique 3 4 h3 h4) (by decide)
  · simp only [shopRows, Prod.mk.injEq] at hrows
    obtain ⟨hdone, h3, -⟩ := hrows
    refine ⟨quiet_of_isDone hdone, h3, hpromoted, fun hlive => ?_⟩
    exact (hlive.status 3 1 _ hpromoted h3).2.2 rfl

/-- A first deploy whose promotion fails halfway, a deploy, a redeploy and a stop, one after the
other. -/
def orderedTurns : List Turn :=
  (.acceptDeploy (.plain 1 "shop") .externalImage :: halfPromote 0) ++
    (.acceptDeploy (.plain 1 "shop") .externalImage :: wireUp 1) ++ [.call 1 .ok] ++
    (.acceptDeploy (.plain 1 "shop") .externalImage :: wireUp 2) ++ [.call 2 .ok] ++
    .acceptStop false :: [.ok, .stopped .stopped, .ok, .ok, .ok, .ok].map (.call 3)

/-- The guard, as a test. -/
def safeTurn (σ : Daemon) : Turn → Bool
  | .call i answer =>
      match σ.tasks.lookup i with
      | some (.deploy t) =>
          (t.pc != .healthyStatus || answer != .ok ||
            σ.world.store.promotedDeployment 1 == some t.deploymentId) &&
          (t.phase != .failing || answer != .ok ||
            σ.world.store.promotedDeployment 1 != some t.deploymentId) &&
          (match answer with
            | .halfDone _ => σ.world.store.promotedDeployment 1 == none
            | _ => true)
      | some (.stop u) =>
          match u.pc with
          | .clearPromoted _ => answer == .ok &&
              match σ.world.store.promotedDeployment 1 with
              | none => true
              | some q => ((σ.world.store.row q).map (·.2)).all (· == .stopped)
          | _ => true
      | none => true
  | _ => true

theorem safeTurn_spec (σ : Daemon) (turn : Turn) (h : safeTurn σ turn = true) :
    SafeTurn 1 σ turn := by
  cases turn with
  | acceptDeploy => trivial
  | acceptStop => trivial
  | call =>
    intro task htask
    simp only [safeTurn, htask] at h
    cases task with
    | deploy =>
      simp only [Bool.and_eq_true, Bool.or_eq_true, bne_iff_ne, beq_iff_eq] at h
      obtain ⟨⟨h1, h2⟩, h3⟩ := h
      refine ⟨?_, ?_, ?_⟩
      · intro hpc hok
        rcases h1 with (h1 | h1) | h1
        · exact absurd hpc h1
        · exact absurd hok h1
        · exact h1
      · intro hphase hok
        rcases h2 with (h2 | h2) | h2
        · exact absurd hphase h2
        · exact absurd hok h2
        · exact h2
      · rintro reason rfl
        exact beq_iff_eq.mp h3
    | stop =>
      intro d hpc
      simp only [hpc, Bool.and_eq_true, beq_iff_eq] at h
      refine ⟨fun _ q service status hq hrow => ?_, fun hok => absurd h.1 hok⟩
      have hall := h.2
      rw [hq] at hall
      simpa [hrow] using hall

/-- Run in order, the tasks leave one live row at the end. -/
theorem daemon_one_live_shop :
    ∃ σ, exec (Daemon.step 1) ⟨idleWorld, ∅, 0⟩ orderedTurns = some σ ∧ σ.Quiet ∧
      OneLive 1 σ.world.store := by
  refine exists_run (fun σ => (σ.tasks.entries.all fun e => e.2.isDone) = true)
    (by decide +kernel) fun σ hrun hdone => ?_
  have hquiet := quiet_of_isDone hdone
  exact ⟨hquiet, daemon_one_live idleWorld_oneLive.1 idleWorld_oneLive.2
    (guarded_of_checked safeTurn_spec (by decide +kernel)) hrun hquiet⟩

end Denia.Deploy
