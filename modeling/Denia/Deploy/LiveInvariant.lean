/-
  Denia.Deploy.LiveInvariant — what each call of a deploy or a stop does to the rows and
  the promotion of its service, and the invariant every SAFE call keeps.

  Promotion, demotion of the outgoing row, the final `Healthy` write, the `Stopped` write and
  the clearing of the promotion are calls of their own.  The shuffles that do harm are named by
  a guard on four calls (`SafeCall`).  Between two calls a row that is not promoted yet is known
  to its own deploy only, and a stopped row that is still promoted has a stop about to clear it
  (`Inv`).

  Main results: `Inv.deploy_call` and `Inv.stop_call`, one call; `Inv.oneLive`, with nothing
  in flight.
-/
import Denia.Deploy.Daemon
import Denia.Lib.AssocMap

namespace Denia.Deploy

open Autoscale Lib

/-! ## §1. The property. -/

/-- One live row: at most one row of the service is healthy, it is the promoted one,
and a promoted row is not failed, stopped or inactive. -/
structure OneLive (serviceId : Uuid) (db : Store) : Prop where
  unique : ∀ d d', db.row d = some (serviceId, .healthy) → db.row d' = some (serviceId, .healthy) →
    d = d'
  promoted : ∀ d, db.row d = some (serviceId, .healthy) → db.promotedDeployment serviceId = some d
  status : ∀ d service status, db.promotedDeployment serviceId = some d →
    db.row d = some (service, status) →
    status ≠ .failed ∧ status ≠ .stopped ∧ status ≠ .inactive

/-- Ids in use are below the next one. -/
def FreshIds (serviceId : Uuid) (db : Store) : Prop :=
  (∀ d, db.nextId ≤ d → db.row d = none) ∧
    ∀ d, db.promotedDeployment serviceId = some d → d < db.nextId

/-! ## §2. The guard. -/

/-- What the property needs of a call: which shuffles are left out. -/
def SafeCall (serviceId : Uuid) (db : Store) : Task → Answer → Prop
  | .deploy t, answer =>
      (t.pc = .healthyStatus → answer = .ok →
          db.promotedDeployment serviceId = some t.deploymentId) ∧
        (t.phase = .failing → answer = .ok →
          db.promotedDeployment serviceId ≠ some t.deploymentId) ∧
        ∀ reason, answer = .halfDone reason → db.promotedDeployment serviceId = none
  | .stop t, answer =>
      ∀ d, t.pc = .clearPromoted d →
        (answer = .ok → ∀ q service status, db.promotedDeployment serviceId = some q →
          db.row q = some (service, status) → status = .stopped) ∧
        (answer ≠ .ok → db.promotedDeployment serviceId ≠ some d)

/-- Every call of the run is safe in the state it is made in. -/
def SafeTurn (serviceId : Uuid) (σ : Daemon) : Turn → Prop
  | .call i answer => ∀ task, σ.tasks.lookup i = some task →
      SafeCall serviceId σ.world.store task answer
  | _ => True

/-! ## §3. The invariant. -/

/-- A deploy that has not promoted its row. -/
def DeployTask.Unpromoted (t : DeployTask) : Prop := t.phase = .preparing ∨ t.phase = .wired

/-- The deploy at another of its calls. -/
abbrev DeployTask.goTo (t : DeployTask) (pc : DeployPc) : DeployTask := { t with pc := pc }

/-- A row that only its own deploy knows. -/
structure Candidate (serviceId : Uuid) (σ : Daemon) (d : Uuid) : Prop where
  unpromoted : σ.world.store.promotedDeployment serviceId ≠ some d
  early : ∀ service status, σ.world.store.row d = some (service, status) →
    status = .pending ∨ status = .building ∨ status = .starting
  unheld : ∀ j t, σ.tasks.lookup j = some (.stop t) → t.pc.holds ≠ some d

/-- The invariant for one service. -/
structure Inv (serviceId : Uuid) (σ : Daemon) : Prop where
  fresh : FreshIds serviceId σ.world.store
  healthy : ∀ d, σ.world.store.row d = some (serviceId, .healthy) →
    σ.world.store.promotedDeployment serviceId = some d
  promoted : ∀ d service status, σ.world.store.promotedDeployment serviceId = some d →
    σ.world.store.row d = some (service, status) →
    status ≠ .failed ∧ status ≠ .inactive ∧
      (status = .stopped → ∃ j t, σ.tasks.lookup j = some (.stop t) ∧ t.pc = .clearPromoted d)
  deploys : ∀ i t, σ.tasks.lookup i = some (.deploy t) →
    t.service.id = serviceId ∧ t.OnPath ∧ t.deploymentId < σ.world.store.nextId ∧
      (t.Unpromoted → Candidate serviceId σ t.deploymentId)
  distinct : ∀ i j t t', σ.tasks.lookup i = some (.deploy t) →
    σ.tasks.lookup j = some (.deploy t') → t.deploymentId = t'.deploymentId → i = j
  stops : ∀ i t, σ.tasks.lookup i = some (.stop t) →
    t.serviceId = serviceId ∧ ∀ d, t.pc.holds = some d → d < σ.world.store.nextId
  numbered : ∀ i, σ.accepted ≤ i → σ.tasks.lookup i = none

variable {serviceId : Uuid} {σ : Daemon}

/-- Without tasks in flight the invariant is the property. -/
theorem Inv.oneLive (h : Inv serviceId σ) (hquiet : σ.Quiet) : OneLive serviceId σ.world.store where
  unique d d' hd hd' := by
    have h1 := h.healthy d hd
    rw [h.healthy d' hd'] at h1
    injection h1 with h1
    exact h1.symm
  promoted := h.healthy
  status d service status hd hrow := by
    obtain ⟨hfailed, hinactive, hstopped⟩ := h.promoted d service status hd hrow
    refine ⟨hfailed, fun hs => ?_, hinactive⟩
    obtain ⟨j, t, hj, hpc⟩ := hstopped hs
    obtain ⟨r, hr⟩ := hquiet j _ hj
    simp [hpc] at hr

variable {w : World}

/-- A world with no task, and one live row. -/
theorem Inv.of_oneLive (hlive : OneLive serviceId w.store) (hfresh : FreshIds serviceId w.store) :
    Inv serviceId ⟨w, ∅, 0⟩ where
  fresh := hfresh
  healthy := hlive.promoted
  promoted d service status hd hrow := by
    obtain ⟨hfailed, hstopped, hinactive⟩ := hlive.status d service status hd hrow
    exact ⟨hfailed, hinactive, fun h => absurd h hstopped⟩
  deploys i t h := by cases h
  distinct i j t t' h := by cases h
  stops i t h := by cases h
  numbered i _ := rfl

/-! ## §4. A call of a deploy. -/

/-- The rows, the promotion of the service and the next id are the same. -/
structure SameView (serviceId : Uuid) (db db' : Store) : Prop where
  row : ∀ d, db'.row d = db.row d
  promoted : db'.promotedDeployment serviceId = db.promotedDeployment serviceId
  nextId : db'.nextId = db.nextId

theorem FreshIds.of_sameView {db db' : Store} (h : FreshIds serviceId db)
    (hsame : SameView serviceId db db') : FreshIds serviceId db' := by
  refine ⟨fun d hd => ?_, fun d hd => ?_⟩
  · rw [hsame.row]
    exact h.1 d (hsame.nextId ▸ hd)
  · rw [hsame.nextId]
    exact h.2 d (hsame.promoted ▸ hd)

/-- One row has another status, and nothing else is changed. -/
structure StatusWritten (serviceId id : Uuid) (status : DeploymentStatus) (db db' : Store) :
    Prop where
  self : ∀ service st, db'.row id = some (service, st) → st = status
  others : ∀ d, d ≠ id → db'.row d = db.row d
  promoted : db'.promotedDeployment serviceId = db.promotedDeployment serviceId
  nextId : db'.nextId = db.nextId
  fresh : FreshIds serviceId db → FreshIds serviceId db'

theorem statusWritten (serviceId id : Uuid) (status : DeploymentStatus) (db : Store) :
    StatusWritten serviceId id status db (db.updateDeploymentStatus id status) := by
  obtain ⟨rows, hrows⟩ := db.updateDeploymentStatus_eq id status
  have hpromoted : (db.updateDeploymentStatus id status).promotedDeployment serviceId
      = db.promotedDeployment serviceId := congrArg (·.promotedDeployment serviceId) hrows
  have hnext : (db.updateDeploymentStatus id status).nextId = db.nextId := congrArg (·.nextId) hrows
  refine ⟨fun service st hst => ?_, fun d hd => ?_, hpromoted, hnext, fun hfresh => ⟨?_, ?_⟩⟩
  · rw [row_updateDeploymentStatus, if_pos rfl] at hst
    obtain ⟨r, -, ⟨⟩⟩ := Option.map_eq_some_iff.mp hst
    rfl
  · rw [row_updateDeploymentStatus, if_neg hd]
  · intro d hd
    rw [row_updateDeploymentStatus, hfresh.1 d (hnext ▸ hd)]
    split <;> rfl
  · exact fun d hd => hnext ▸ hfresh.2 d (hpromoted ▸ hd)

variable {w' : World} {i : Nat} {t' : DeployTask} {effect : Effect} {answer : Answer}

section
variable {t : DeployTask} {pc : DeployPc}

/-- The stops do not notice that a deploy has moved. -/
theorem lookup_stop_of_insert_deploy (ht : σ.tasks.lookup i = some (.deploy t)) (j : Nat)
    (u : StopTask) : (σ.tasks.insert i (.deploy t')).lookup j = some (.stop u) ↔
      σ.tasks.lookup j = some (.stop u) := by
  refine lookup_insert_iff_of_ne ht ?_ ?_ j <;> nofun

/-- The effects of preparing and of wiring that are no status write leave the rows and
the promotion alone. -/
theorem sameView_refl (serviceId : Uuid) (db : Store) : SameView serviceId db db :=
  ⟨fun _ => rfl, rfl, rfl⟩

theorem sameView_wiring (h : Wiring t effect) :
    SameView serviceId w.store (w.apply effect).store := by
  cases h with
  | route =>
    show SameView serviceId w.store (w.putSnapshot _).store
    rw [World.putSnapshot_store]
    exact sameView_refl _ _
  | _ => exact sameView_refl _ _

theorem sameView_setArtifact {d : Uuid} {digest : String} :
    SameView serviceId w.store (w.apply (.setArtifact d digest)).store := by
  show SameView serviceId w.store (w.store.setDeploymentArtifact d digest)
  obtain ⟨rows, hrows⟩ := w.store.setDeploymentArtifact_eq d digest
  refine ⟨fun d' => row_setDeploymentArtifact _ _ _ d', ?_, ?_⟩
  · rw [hrows]
    rfl
  · rw [hrows]

/-- Where no row is promoted there is none to demote. -/
theorem sameView_demote {s d : Uuid} (hs : s = serviceId)
    (hnone : w.store.promotedDeployment serviceId = none) :
    SameView serviceId w.store (w.apply (.demote s d)).store := by
  subst hs
  have hsame : w.store.demoteOutgoing s d = w.store := by
    unfold Store.demoteOutgoing
    rw [hnone]
  show SameView s w.store (w.store.demoteOutgoing s d)
  rw [hsame]
  exact sameView_refl _ _

variable (h : Inv serviceId σ) (ht : σ.tasks.lookup i = some (.deploy t))
include h ht

/-- A deploy that moves keeps its number and its row. -/
theorem Inv.deploy_moves (hpath : (t.goTo pc).OnPath)
    (hnext : w'.store.nextId = σ.world.store.nextId) (hfresh : FreshIds serviceId w'.store)
    (hhealthy : ∀ d, w'.store.row d = some (serviceId, .healthy) →
      w'.store.promotedDeployment serviceId = some d)
    (hpromoted : ∀ d service status, w'.store.promotedDeployment serviceId = some d →
      w'.store.row d = some (service, status) →
      status ≠ .failed ∧ status ≠ .inactive ∧
        (status = .stopped → ∃ j u, σ.tasks.lookup j = some (.stop u) ∧ u.pc = .clearPromoted d))
    (hself : (t.goTo pc).Unpromoted → t.Unpromoted ∧
      (∀ service status, w'.store.row t.deploymentId = some (service, status) →
        status = .pending ∨ status = .building ∨ status = .starting) ∧
      w'.store.promotedDeployment serviceId ≠ some t.deploymentId)
    (hothers : ∀ d, d ≠ t.deploymentId → σ.world.store.promotedDeployment serviceId ≠ some d →
      w'.store.row d = σ.world.store.row d ∧ w'.store.promotedDeployment serviceId ≠ some d) :
    Inv serviceId { σ with world := w', tasks := σ.tasks.insert i (.deploy (t.goTo pc)) } where
  fresh := hfresh
  healthy := hhealthy
  promoted d service status hd hrow := by
    obtain ⟨h1, h2, h3⟩ := hpromoted d service status hd hrow
    refine ⟨h1, h2, fun hs => ?_⟩
    obtain ⟨j, u, hj, hu⟩ := h3 hs
    exact ⟨j, u, (lookup_stop_of_insert_deploy ht j u).mpr hj, hu⟩
  deploys j u hj := by
    have hunheld : ∀ d, (∀ k v, σ.tasks.lookup k = some (.stop v) → v.pc.holds ≠ some d) →
        ∀ k v, (σ.tasks.insert i (.deploy (t.goTo pc))).lookup k = some (.stop v) →
          v.pc.holds ≠ some d :=
      fun d hd k v hk => hd k v ((lookup_stop_of_insert_deploy ht k v).mp hk)
    rcases lookup_insert_cases hj with ⟨rfl, hu⟩ | ⟨hne, hj⟩
    · cases hu
      obtain ⟨hs, -, hlt, hcand⟩ := h.deploys i t ht
      refine ⟨hs, hpath, hnext ▸ hlt, fun hun => ?_⟩
      obtain ⟨hbefore, hearly, hun⟩ := hself hun
      exact ⟨hun, hearly, hunheld _ (hcand hbefore).unheld⟩
    · obtain ⟨hs, hp, hlt, hcand⟩ := h.deploys j u hj
      refine ⟨hs, hp, by rwa [hnext], fun hun => ?_⟩
      have hcand := hcand hun
      -- the row that may have changed is of no other deploy
      have hdiff : u.deploymentId ≠ t.deploymentId := fun heq => hne (h.distinct j i u t hj ht heq)
      obtain ⟨hrow, hprom⟩ := hothers _ hdiff hcand.unpromoted
      exact ⟨hprom, fun service status hst => hcand.early service status (hrow ▸ hst),
        hunheld _ hcand.unheld⟩
  distinct j k u v hj hk heq := by
    rcases lookup_insert_cases hj with ⟨rfl, hu⟩ | ⟨hjne, hj⟩ <;>
      rcases lookup_insert_cases hk with ⟨hik, hv⟩ | ⟨hkne, hk⟩
    · exact hik
    · cases hu
      exact h.distinct i k t v ht hk heq
    · subst hik
      cases hv
      exact h.distinct j i u t hj ht heq
    · exact h.distinct j k u v hj hk heq
  stops j u hj := by
    obtain ⟨hs, hheld⟩ := h.stops j u ((lookup_stop_of_insert_deploy ht j u).mp hj)
    exact ⟨hs, fun d hd => hnext ▸ hheld d hd⟩
  numbered := Numbered.replace h.numbered ht _

/-- A call that leaves the rows and the promotion alone. -/
theorem Inv.deploy_same (hpath : (t.goTo pc).OnPath)
    (hsame : SameView serviceId σ.world.store w'.store)
    (hphase : (t.goTo pc).Unpromoted → t.Unpromoted) :
    Inv serviceId { σ with world := w', tasks := σ.tasks.insert i (.deploy (t.goTo pc)) } := by
  refine h.deploy_moves ht hpath hsame.nextId (h.fresh.of_sameView hsame) ?_ ?_ ?_ ?_
    <;> simp only [hsame.row, hsame.promoted]
  · exact h.healthy
  · exact h.promoted
  · intro hun
    have hcand := (h.deploys i t ht).2.2.2 (hphase hun)
    exact ⟨hphase hun, hcand.early, hcand.unpromoted⟩
  · exact fun d _ hd => ⟨trivial, hd⟩

/-- A status write of a deploy to its own row: healthy only while promoted, failed only
while not, and an early status only before the promotion. -/
theorem Inv.deploy_status {status : DeploymentStatus} (hpath : (t.goTo pc).OnPath)
    (hstore : w'.store = σ.world.store.updateDeploymentStatus t.deploymentId status)
    (hwrite : (status = .healthy ∧
        σ.world.store.promotedDeployment serviceId = some t.deploymentId ∧
        ¬ (t.goTo pc).Unpromoted) ∨
      (status = .failed ∧
        σ.world.store.promotedDeployment serviceId ≠ some t.deploymentId ∧
        ¬ (t.goTo pc).Unpromoted) ∨
      ((status = .building ∨ status = .starting) ∧ t.Unpromoted)) :
    Inv serviceId { σ with world := w', tasks := σ.tasks.insert i (.deploy (t.goTo pc)) } := by
  have hwritten := statusWritten serviceId t.deploymentId status σ.world.store
  rw [← hstore] at hwritten
  obtain ⟨hrow_self, hrow_ne, hprom, hnext, hfresh⟩ := hwritten
  refine h.deploy_moves ht hpath hnext (hfresh h.fresh) ?_ ?_ ?_ ?_ <;>
    simp only [hprom]
  · intro d hd
    by_cases hself : d = t.deploymentId
    · subst hself
      have hst := hrow_self _ _ hd
      rcases hwrite with ⟨-, hp, -⟩ | ⟨rfl, -, -⟩ | ⟨rfl | rfl, -⟩
      · exact hp
      all_goals cases hst
    · rw [hrow_ne d hself] at hd
      exact h.healthy d hd
  · intro d service st hd hst
    by_cases hself : d = t.deploymentId
    · subst hself
      have hst := hrow_self _ _ hst
      rcases hwrite with ⟨rfl, -, -⟩ | ⟨-, hp, -⟩ | ⟨-, hun⟩
      · simp [hst]
      · exact absurd hd hp
      · exact absurd hd ((h.deploys i t ht).2.2.2 hun).unpromoted
    · rw [hrow_ne d hself] at hst
      exact h.promoted d service st hd hst
  · intro hun
    rcases hwrite with ⟨-, -, hno⟩ | ⟨-, -, hno⟩ | ⟨hstatus, hbefore⟩
    · exact absurd hun hno
    · exact absurd hun hno
    · exact ⟨hbefore, fun service st hst => hrow_self _ _ hst ▸ .inr hstatus,
        ((h.deploys i t ht).2.2.2 hbefore).unpromoted⟩
  · exact fun d hd hp => ⟨hrow_ne d hd, hp⟩

/-- The promotion of a row that only its own deploy knows. -/
theorem Inv.deploy_promote (hpath : (t.goTo pc).OnPath)
    (hstore : w'.store = σ.world.store.promoteDeployment serviceId t.deploymentId)
    (hbefore : t.Unpromoted) (hafter : ¬ (t.goTo pc).Unpromoted) :
    Inv serviceId { σ with world := w', tasks := σ.tasks.insert i (.deploy (t.goTo pc)) } := by
  obtain ⟨-, -, hlt, hcand⟩ := h.deploys i t ht
  have hcand := hcand hbefore
  have hprom : w'.store.promotedDeployment serviceId = some t.deploymentId := by
    rw [hstore, promoteDeployment_promoted]
  have hnext : w'.store.nextId = σ.world.store.nextId := by
    rw [hstore, promoteDeployment_nextId]
  have hrow : ∀ d, w'.store.row d = if σ.world.store.promotedDeployment serviceId = some d ∧
      d ≠ t.deploymentId then (σ.world.store.row d).map fun r => (r.1, .inactive)
      else σ.world.store.row d := fun d => hstore ▸ row_demoteOutgoing ..
  have hrow_kept : ∀ d, σ.world.store.promotedDeployment serviceId ≠ some d →
      w'.store.row d = σ.world.store.row d := fun d hd => (hrow d).trans (if_neg fun h => hd h.1)
  have hrow_self := hrow_kept _ hcand.unpromoted
  refine h.deploy_moves ht hpath hnext ?_ ?_ ?_ ?_ ?_
  · refine ⟨fun d hd => ?_, fun d hd => ?_⟩
    · rw [hrow, h.fresh.1 d (hnext ▸ hd)]
      split <;> rfl
    · cases hprom.symm.trans hd
      rwa [hnext]
  · intro d hd
    rw [hrow] at hd
    split at hd
    next hout =>
      obtain ⟨r, -, ⟨⟩⟩ := Option.map_eq_some_iff.mp hd
    next hout =>
      -- a healthy row was promoted, so it is the new one or has just been demoted
      by_cases hself : d = t.deploymentId
      · exact hself ▸ hprom
      · exact absurd ⟨h.healthy d hd, hself⟩ hout
  · intro d service st hd hst
    cases hprom.symm.trans hd
    rw [hrow_self] at hst
    rcases hcand.early service st hst with rfl | rfl | rfl <;> simp
  · exact fun hun => absurd hun hafter
  · intro d hd hp
    exact ⟨hrow_kept d hp, by simpa [hprom] using Ne.symm hd⟩

/-- What a preparing deploy writes, whether it goes on or gives up. -/
theorem Inv.deploy_prepare (heffect : Preparatory t effect) (hpath : (t.goTo pc).OnPath)
    (hbefore : t.Unpromoted) : Inv serviceId
      { σ with
        world := σ.world.apply effect, tasks := σ.tasks.insert i (.deploy (t.goTo pc)) } := by
  cases heffect with
  | nothing => exact h.deploy_same ht hpath (sameView_refl _ _) fun _ => hbefore
  | building =>
    exact h.deploy_status ht hpath rfl (.inr (.inr ⟨.inl rfl, hbefore⟩))
  | starting =>
    exact h.deploy_status ht hpath rfl (.inr (.inr ⟨.inr rfl, hbefore⟩))
  | putArtifact => exact h.deploy_same ht hpath ⟨fun _ => rfl, rfl, rfl⟩ fun _ => hbefore
  | setArtifact => exact h.deploy_same ht hpath sameView_setArtifact fun _ => hbefore

/-- **A safe call of a deploy keeps the invariant.** -/
theorem Inv.deploy_call (hsafe : SafeCall serviceId σ.world.store (.deploy t) answer)
    (hstep : deployStep (σ.world, t) answer = some (w', t')) :
    Inv serviceId { σ with world := w', tasks := σ.tasks.insert i (.deploy t') } := by
  obtain ⟨effect, pc, hnext, rfl, rfl⟩ := deployStep_eq hstep
  obtain ⟨hs, hpath, -, -⟩ := h.deploys i t ht
  have hpath' := next_onPath hpath hnext
  have hmove := next_phase hpath hnext
  -- from the promotion on a deploy is a candidate no more
  have hlate : ∀ {phase : Phase}, pc.phase = phase → phase ≠ .preparing ∧ phase ≠ .wired →
      ¬ (t.goTo pc).Unpromoted := by
    rintro phase hphase ⟨h1, h2⟩ (hun | hun)
    · exact h1 (hphase.symm.trans hun)
    · exact h2 (hphase.symm.trans hun)
  generalize hcur : t.phase = phase at hmove
  generalize hpc : pc.phase = phase' at hmove
  cases hmove with
  | prepare heffect | giveUp heffect =>
    exact h.deploy_prepare ht heffect hpath' (.inl hcur)
  | start =>
    exact h.deploy_same ht hpath' ⟨fun _ => rfl, rfl, rfl⟩ fun _ => .inl hcur
  | handOff =>
    exact h.deploy_promote ht hpath' (hs ▸ rfl) (.inl hcur) (hlate hpc (by simp))
  | promote =>
    exact h.deploy_promote ht hpath' (hs ▸ rfl) (.inr hcur) (hlate hpc (by simp))
  | probe | refuse =>
    exact h.deploy_same ht hpath' (sameView_refl _ _) fun _ => .inr hcur
  | halfHandOff _ hhalf =>
    exact h.deploy_same ht hpath' (sameView_demote hs (hsafe.2.2 _ hhalf)) fun _ => .inl hcur
  | halfPromote hhalf =>
    exact h.deploy_same ht hpath' (sameView_demote hs (hsafe.2.2 _ hhalf)) fun _ => .inr hcur
  | wire heffect =>
    exact h.deploy_same ht hpath' (sameView_wiring heffect)
      fun hun => absurd hun (hlate hpc (by simp))
  | breakOff heffect =>
    exact h.deploy_same ht hpath' (sameView_wiring heffect)
      fun hun => absurd hun (hlate hpc (failWiredPhase_late t))
  | unfinished =>
    exact h.deploy_same ht hpath' (sameView_refl _ _)
      fun hun => absurd hun (hlate hpc (failPhase_late t))
  | finish hat hok =>
    exact h.deploy_status ht hpath' rfl
      (.inl ⟨rfl, hsafe.1 hat hok, hlate hpc (by simp)⟩)
  | undo =>
    exact h.deploy_same ht hpath' ⟨fun _ => rfl, rfl, rfl⟩
      fun hun => absurd hun (hlate hpc (by simp))
  | undone =>
    exact h.deploy_same ht hpath' ⟨fun _ => rfl, rfl, rfl⟩
      fun hun => absurd hun (hlate hpc (failPhase_late t))
  | record hok =>
    exact h.deploy_status ht hpath' rfl
      (.inr (.inl ⟨rfl, hsafe.2.1 hcur hok, hlate hpc (by simp)⟩))
  | unrecorded =>
    exact h.deploy_same ht hpath' (sameView_refl _ _)
      fun hun => absurd hun (hlate hpc (by simp))

end

/-! ## §5. A call of a stop. -/

/-- The stop at another of its calls. -/
abbrev StopTask.goTo (u : StopTask) (pc : StopPc) : StopTask := { u with pc := pc }

variable {u' : StopTask}

section
variable {u : StopTask} {pc : StopPc}

/-- The deploys do not notice that a stop has moved. -/
theorem lookup_deploy_of_insert_stop (hu : σ.tasks.lookup i = some (.stop u)) (j : Nat)
    (t : DeployTask) : (σ.tasks.insert i (.stop u')).lookup j = some (.deploy t) ↔
      σ.tasks.lookup j = some (.deploy t) := by
  refine lookup_insert_iff_of_ne hu ?_ ?_ j <;> nofun

variable (h : Inv serviceId σ) (hu : σ.tasks.lookup i = some (.stop u))
include h hu

/-- A stop that moves: the row it holds afterwards is one it held, or the promoted
one. -/
theorem Inv.stop_moves (hnext : w'.store.nextId = σ.world.store.nextId)
    (hfresh : FreshIds serviceId w'.store)
    (hhealthy : ∀ d, w'.store.row d = some (serviceId, .healthy) →
      w'.store.promotedDeployment serviceId = some d)
    (hpromoted : ∀ d service status, w'.store.promotedDeployment serviceId = some d →
      w'.store.row d = some (service, status) →
      status ≠ .failed ∧ status ≠ .inactive ∧ (status = .stopped →
        pc = .clearPromoted d ∨
          ∃ j v, j ≠ i ∧ σ.tasks.lookup j = some (.stop v) ∧ v.pc = .clearPromoted d))
    (hholds : ∀ d, pc.holds = some d →
      u.pc.holds = some d ∨ σ.world.store.promotedDeployment serviceId = some d)
    (hothers : ∀ d, u.pc.holds ≠ some d → σ.world.store.promotedDeployment serviceId ≠ some d →
      w'.store.row d = σ.world.store.row d ∧ w'.store.promotedDeployment serviceId ≠ some d) :
    Inv serviceId { σ with world := w', tasks := σ.tasks.insert i (.stop (u.goTo pc)) } where
  fresh := hfresh
  healthy := hhealthy
  promoted d service status hd hrow := by
    obtain ⟨h1, h2, h3⟩ := hpromoted d service status hd hrow
    refine ⟨h1, h2, fun hs => ?_⟩
    rcases h3 hs with hpc | ⟨j, v, hj, hv, hpc⟩
    · exact ⟨i, u.goTo pc, AList.lookup_insert _, hpc⟩
    · exact ⟨j, v, (AList.lookup_insert_ne hj).trans hv, hpc⟩
  deploys j t hj := by
    rw [lookup_deploy_of_insert_stop hu] at hj
    obtain ⟨hs, hp, hlt, hcand⟩ := h.deploys j t hj
    refine ⟨hs, hp, by rwa [hnext], fun hun => ?_⟩
    have hcand := hcand hun
    obtain ⟨hrow, hprom⟩ := hothers _ (hcand.unheld i u hu) hcand.unpromoted
    refine ⟨hprom, fun service status hst => hcand.early service status (hrow ▸ hst), ?_⟩
    intro k v hk
    rcases lookup_insert_cases hk with ⟨rfl, hv⟩ | ⟨-, hk⟩
    · cases hv
      exact fun hheld => (hholds _ hheld).elim (hcand.unheld i u hu) hcand.unpromoted
    · exact hcand.unheld k v hk
  distinct j k t t' hj hk heq := by
    rw [lookup_deploy_of_insert_stop hu] at hj hk
    exact h.distinct j k t t' hj hk heq
  stops j v hj := by
    rcases lookup_insert_cases hj with ⟨rfl, hv⟩ | ⟨-, hj⟩
    · cases hv
      obtain ⟨hs, hheld⟩ := h.stops i u hu
      exact ⟨hs, fun d hd => hnext ▸ (hholds d hd).elim (hheld d) (h.fresh.2 d)⟩
    · obtain ⟨hs, hheld⟩ := h.stops j v hj
      exact ⟨hs, fun d hd => hnext ▸ hheld d hd⟩
  numbered := Numbered.replace h.numbered hu _

/-- A call of a stop that leaves the rows and the promotion alone. -/
theorem Inv.stop_same (hsame : SameView serviceId σ.world.store w'.store)
    (hkeep : ∀ d, u.pc = .clearPromoted d →
      σ.world.store.promotedDeployment serviceId ≠ some d) (hholds : ∀ d, pc.holds = some d →
      u.pc.holds = some d ∨ σ.world.store.promotedDeployment serviceId = some d) :
    Inv serviceId { σ with world := w', tasks := σ.tasks.insert i (.stop (u.goTo pc)) } := by
  refine h.stop_moves hu hsame.nextId (h.fresh.of_sameView hsame) ?_ ?_ hholds ?_ <;>
    simp only [hsame.row, hsame.promoted]
  · exact h.healthy
  · intro d service status hd hrow
    obtain ⟨h1, h2, h3⟩ := h.promoted d service status hd hrow
    refine ⟨h1, h2, fun hs => .inr ?_⟩
    obtain ⟨j, v, hj, hv⟩ := h3 hs
    refine ⟨j, v, ?_, hj, hv⟩
    rintro rfl
    cases hu.symm.trans hj
    exact hkeep d hv hd
  · exact fun d _ hd => ⟨trivial, hd⟩

/-- The `Stopped` write of a stop: if its row is still promoted, the stop goes on to
clear the promotion. -/
theorem Inv.stop_write {p : Uuid} (hpc : u.pc = .stoppedStatus p)
    (hstore : w'.store = σ.world.store.updateDeploymentStatus p .stopped) : Inv serviceId
      { σ with world := w', tasks := σ.tasks.insert i (.stop (u.goTo (.clearPromoted p))) } := by
  have hwritten := statusWritten serviceId p .stopped σ.world.store
  rw [← hstore] at hwritten
  obtain ⟨hrow_self, hrow_ne, hprom, hnext, hfresh⟩ := hwritten
  have hholds : u.pc.holds = some p := hpc ▸ rfl
  refine h.stop_moves hu hnext (hfresh h.fresh) ?_ ?_
    (fun d hd => .inl (hholds.trans hd)) ?_ <;>
    simp only [hprom]
  · intro d hd
    by_cases hself : d = p
    · subst hself
      cases hrow_self _ _ hd
    · exact h.healthy d (hrow_ne d hself ▸ hd)
  · intro d service st hd hst
    by_cases hself : d = p
    · subst hself
      cases hrow_self _ _ hst
      exact ⟨by simp, by simp, fun _ => .inl rfl⟩
    · rw [hrow_ne d hself] at hst
      obtain ⟨h1, h2, h3⟩ := h.promoted d service st hd hst
      refine ⟨h1, h2, fun hs => .inr ?_⟩
      obtain ⟨j, v, hj, hv⟩ := h3 hs
      refine ⟨j, v, ?_, hj, hv⟩
      rintro rfl
      cases hu.symm.trans hj
      simp [hpc] at hv
  · rw [hpc]
    exact fun d hd hp => ⟨hrow_ne d fun heq => hd (heq ▸ rfl), hp⟩

/-- Clearing a promotion whose row is stopped. -/
theorem Inv.stop_clear (hpc' : pc.holds = none)
    (hstopped : ∀ q service status, σ.world.store.promotedDeployment serviceId = some q →
      σ.world.store.row q = some (service, status) → status = .stopped)
    (hstore : w'.store = σ.world.store.clearPromotedDeployment serviceId) :
    Inv serviceId { σ with world := w', tasks := σ.tasks.insert i (.stop (u.goTo pc)) } := by
  have hprom : w'.store.promotedDeployment serviceId = none := hstore ▸ AList.lookup_erase _ _
  have hrow : ∀ d, w'.store.row d = σ.world.store.row d := fun d => hstore ▸ rfl
  have hnext : w'.store.nextId = σ.world.store.nextId := hstore ▸ rfl
  refine h.stop_moves hu hnext ?_ ?_ (by simp [hprom]) (by simp [hpc'])
    fun d _ _ => ⟨hrow d, by simp [hprom]⟩
  · exact ⟨fun d hd => (hrow d).trans (h.fresh.1 d (hnext ▸ hd)), by simp [hprom]⟩
  · intro d hd
    -- a healthy row would be promoted, and what is promoted is stopped
    rw [hrow] at hd
    cases hstopped d _ _ (h.healthy d hd) hd

/-- **A safe call of a stop keeps the invariant.** -/
theorem Inv.stop_call (hsafe : SafeCall serviceId σ.world.store (.stop u) answer)
    (hstep : stopStep (σ.world, u) answer = some (w', u')) :
    Inv serviceId { σ with world := w', tasks := σ.tasks.insert i (.stop u') } := by
  obtain ⟨effect, pc, hnext, rfl, rfl⟩ := stopStep_eq hstep
  have hs := (h.stops i u hu).1
  have hmove := stop_next hnext
  rw [hs] at hmove
  cases hmove with
  | read hpc hholds =>
    exact h.stop_same hu (sameView_refl _ _) (by simp [hpc]) fun d hd => .inr (hholds ▸ hd)
  | tearDown heffect hpc _ hholds =>
    have hsame : SameView serviceId σ.world.store (σ.world.apply effect).store := by
      rcases heffect with rfl | ⟨r, rfl⟩ | rfl | rfl
      · exact sameView_refl _ _
      · exact ⟨fun _ => rfl, rfl, rfl⟩
      · exact ⟨fun _ => rfl, rfl, rfl⟩
      · exact (World.putSnapshot_store _ _).symm ▸ sameView_refl _ _
    refine h.stop_same hu hsame (fun d hd => absurd hd (hpc d)) fun d hd => .inl ?_
    rcases hholds with hnone | hsome
    · simp [hnone] at hd
    · exact hsome ▸ hd
  | write d hpc => exact h.stop_write hu hpc rfl
  | clear d hpc hok => exact h.stop_clear hu rfl ((hsafe d hpc).1 hok) rfl
  | keep d e hpc hok =>
    refine h.stop_same hu (sameView_refl _ _) (fun d' hd' => ?_) (by simp [StopPc.holds])
    cases hpc.symm.trans hd'
    exact (hsafe d hpc).2 hok

end

end Denia.Deploy
