/-
  Denia.Deploy.FailedRedeploy — what a failed redeploy leaves of the version that
  was serving.

  The new and the old deployment of a plain service share the runtime key
  `(service_id, 0)` and the pool key `DEPLOY_REPLICA_ID`, and the compensation of a
  failed wiring stops and removes what is under those keys.  So the old version
  survives exactly the failures that come BEFORE its child is replaced.

  Main results: `servesLive_iff_not_started`, for every list of answers;
  `redeploy_unhealthy_drops_live`.
-/
import Denia.Deploy.Phases

namespace Denia.Deploy

open Autoscale Lib

/-- Deployment `live` serves: it is promoted, its endpoint is healthy in the pool and
the runtime tracks its workload at index 0. -/
def ServesLive (w : World) (serviceId live : Uuid) (socket : String) : Prop :=
  w.store.promotedDeployment serviceId = some live ∧
    ⟨deployReplicaId, socket, true⟩ ∈ w.ctl.ingress.endpoints serviceId ∧
    ∃ child, w.ctl.runtime.children.lookup ⟨serviceId, 0⟩ = some child ∧
      child.deploymentId = live

/-- The runtime has no workload of `live` at index 0. -/
def Replaced (w : World) (serviceId live : Uuid) : Prop :=
  ∀ child, w.ctl.runtime.children.lookup ⟨serviceId, 0⟩ = some child → child.deploymentId ≠ live

/-! ## §1. Effects that keep the live version, and effects that cannot bring it back. -/

variable {w : World} {serviceId live : Uuid} {socket : String}

theorem servesLive_setStatus {id : Uuid} {status : DeploymentStatus}
    (h : ServesLive w serviceId live socket) :
    ServesLive (w.apply (.setStatus id status)) serviceId live socket := by
  refine ⟨?_, h.2⟩
  obtain ⟨rows, hrows⟩ := w.store.updateDeploymentStatus_eq id status
  show (w.store.updateDeploymentStatus id status).promoted.lookup serviceId = some live
  rw [hrows]
  exact h.1

variable {t : DeployTask} {effect : Effect}

theorem servesLive_preparatory (heffect : Preparatory t effect)
    (h : ServesLive w serviceId live socket) :
    ServesLive (w.apply effect) serviceId live socket := by
  cases heffect with
  | nothing => exact h
  | building => exact servesLive_setStatus h
  | starting => exact servesLive_setStatus h
  | putArtifact => exact h
  | setArtifact digest =>
    refine ⟨?_, h.2⟩
    obtain ⟨rows, hrows⟩ := w.store.setDeploymentArtifact_eq t.deploymentId digest
    show (w.store.setDeploymentArtifact t.deploymentId digest).promoted.lookup serviceId = _
    rw [hrows]
    exact h.1

/-- Stopping a child does not bring another one back. -/
theorem replaced_stop {result : StopResult} (h : Replaced w serviceId live) :
    Replaced (w.apply (.stop ⟨serviceId, 0⟩ result)) serviceId live := by
  intro child hchild
  cases result with
  | failedTracked => exact h child hchild
  | stopped | failedRemoved =>
    exact absurd hchild (by
      show (w.ctl.runtime.children.erase ⟨serviceId, 0⟩).lookup ⟨serviceId, 0⟩ ≠ some child
      rw [AList.lookup_erase]
      simp)

/-- The effects on a replaced version: only a start touches the runtime's table
otherwise. -/
theorem replaced_wiring (heffect : Wiring t effect) (h : Replaced w serviceId live) :
    Replaced (w.apply effect) serviceId live := by
  cases heffect with
  | nothing => exact h
  | addEndpoint => exact h
  | endpointHealthy => exact h
  | route =>
    unfold Replaced World.apply
    rwa [World.putSnapshot_ctl]

variable {s s' : World × DeployTask} {answer : Answer}

/-! ## §2. One call. -/
/-- A redeploy of the plain service that has not started anything. -/
structure Unstarted (serviceId live : Uuid) (socket : String) (s : World × DeployTask) : Prop where
  onPath : s.2.OnPath
  plain : s.2.service.autoscale = none
  phase : s.2.phase = .preparing ∨ s.2.phase = .failing ∨ s.2.phase = .ended false
  live : ServesLive s.1 serviceId live socket

/-- A redeploy of the service that has started its child. -/
structure PastStart (serviceId live : Uuid) (s : World × DeployTask) : Prop where
  onPath : s.2.OnPath
  service : s.2.service.id = serviceId
  phase : s.2.phase ≠ .preparing
  replaced : Replaced s.1 serviceId live

/-- Before the start, a call that starts nothing keeps the live version. -/
theorem unstarted_step (hs : Unstarted serviceId live socket s) (hanswer : ∀ x, answer ≠ .started x)
    (h : deployStep s answer = some s') : Unstarted serviceId live socket s' := by
  obtain ⟨w, t⟩ := s
  obtain ⟨w', t'⟩ := s'
  obtain ⟨effect, pc, hnext, rfl, rfl⟩ := deployStep_eq h
  have hmove := next_phase hs.onPath hnext
  have hnostart : ¬ ∃ request x, effect = .start request x := fun hstart =>
    absurd ((next_started hnext).mpr hstart) (by simpa using hanswer)
  suffices hgoal : (pc.phase = .preparing ∨ pc.phase = .failing ∨ pc.phase = .ended false) ∧
      ServesLive (w.apply effect) serviceId live socket from
    ⟨next_onPath hs.onPath hnext, hs.plain, hgoal.1, hgoal.2⟩
  have hlive := hs.live
  have hphase := hs.phase
  have hplain := hs.plain
  simp only at hlive hphase hplain hmove
  generalize pc.phase = phase' at hmove ⊢
  generalize t.phase = phase at hmove hphase
  cases hmove with
  | prepare heffect => exact ⟨.inl rfl, servesLive_preparatory heffect hlive⟩
  | giveUp heffect => exact ⟨.inr (failPhase_cases t), servesLive_preparatory heffect hlive⟩
  | start => exact absurd ⟨_, _, rfl⟩ hnostart
  | handOff hauto | halfHandOff hauto => rw [hplain] at hauto; cases hauto
  | record => exact ⟨.inr (.inr rfl), servesLive_setStatus hlive⟩
  | unrecorded => exact ⟨.inr (.inr rfl), hlive⟩
  | _ => simp at hphase

/-- After the start, no call brings the live version's child back. -/
theorem pastStart_step (hs : PastStart serviceId live s) (h : deployStep s answer = some s') :
    PastStart serviceId live s' := by
  obtain ⟨w, t⟩ := s
  obtain ⟨w', t'⟩ := s'
  obtain ⟨effect, pc, hnext, rfl, rfl⟩ := deployStep_eq h
  have hmove := next_phase hs.onPath hnext
  suffices hgoal : pc.phase ≠ .preparing ∧ Replaced (w.apply effect) serviceId live from
    ⟨next_onPath hs.onPath hnext, hs.service, hgoal.1, hgoal.2⟩
  have hreplaced := hs.replaced
  have hphase := hs.phase
  have hservice := hs.service
  simp only at hreplaced hphase hmove hservice
  subst hservice
  generalize pc.phase = phase' at hmove ⊢
  generalize t.phase = phase at hmove hphase
  cases hmove with
  | prepare | giveUp | start | handOff | halfHandOff => exact absurd rfl hphase
  | probe => exact ⟨by simp, hreplaced⟩
  | promote => exact ⟨by simp, hreplaced⟩
  | refuse | halfPromote => exact ⟨(failWiredPhase_late t).1, hreplaced⟩
  | wire heffect => exact ⟨by simp, replaced_wiring heffect hreplaced⟩
  | breakOff heffect => exact ⟨(failWiredPhase_late t).1, replaced_wiring heffect hreplaced⟩
  | unfinished => exact ⟨(failPhase_late t).1, hreplaced⟩
  | finish => exact ⟨by simp, hreplaced⟩
  | undo => exact ⟨by simp, replaced_stop hreplaced⟩
  | undone => exact ⟨(failPhase_late t).1, hreplaced⟩
  | record => exact ⟨by simp, hreplaced⟩
  | unrecorded => exact ⟨by simp, hreplaced⟩

/-- A successful start replaces the live version's child. -/
theorem started_step {x : String} (hpath : s.2.OnPath) (hservice : s.2.service.id = serviceId)
    (hnew : s.2.deploymentId ≠ live) (h : deployStep s (.started x) = some s') :
    PastStart serviceId live s' := by
  obtain ⟨w, t⟩ := s
  obtain ⟨w', t'⟩ := s'
  obtain ⟨effect, pc, hnext, rfl, rfl⟩ := deployStep_eq h
  obtain ⟨request, y, rfl⟩ := (next_started hnext).mp ⟨x, rfl⟩
  have hmove := next_phase hpath hnext
  suffices hgoal : pc.phase ≠ .preparing ∧
      Replaced (w.apply (.start request y)) serviceId live from
    ⟨next_onPath hpath hnext, hservice, hgoal.1, hgoal.2⟩
  simp only at hservice hmove hnew
  subst hservice
  generalize pc.phase = phase' at hmove ⊢
  generalize t.phase = phase at hmove
  cases hmove with
  | start =>
    refine ⟨by simp, fun child hchild => ?_⟩
    have hlook : (w.ctl.runtime.children.insert ⟨t.service.id, 0⟩
        ⟨t.service.name, t.deploymentId, y⟩).lookup ⟨t.service.id, 0⟩ = some child := hchild
    rw [AList.lookup_insert] at hlook
    cases hlook
    exact hnew
  | giveUp heffect => cases heffect
  | prepare heffect => cases heffect
  | wire heffect => cases heffect
  | breakOff heffect => cases heffect

/-! ## §3. A redeploy that ends in an error. -/

/-- What a call leaves of the task: only the counter moves. -/
theorem deployStep_fixed (h : deployStep s answer = some s') :
    s'.2.deploymentId = s.2.deploymentId ∧ s'.2.service = s.2.service := by
  obtain ⟨effect, pc, -, -, ht⟩ := deployStep_eq h
  rw [ht]
  exact ⟨rfl, rfl⟩

/-- A redeploy of a plain service, as `run_with_deps` or `deploy` starts it. -/
def IsRedeploy (t : DeployTask) : Prop :=
  (∃ d svc req, t = .runWithDeps d svc req) ∨ ∃ d svc artifact, t = .deploy d svc artifact

/-- **A failed redeploy and the live version.**  For a plain service whose promoted
deployment `live` is serving, and a later deployment that ends in an error: `live`
still serves afterwards iff no start of the new deployment succeeded. -/
theorem servesLive_iff_not_started {w w' : World} {t t' : DeployTask} {live : Uuid}
    {socket : String} {answers : List Answer} {e : DeployError} (ht : IsRedeploy t)
    (hplain : t.service.autoscale = none) (hnew : t.deploymentId ≠ live)
    (hlive : ServesLive w t.service.id live socket)
    (hrun : exec deployStep (w, t) answers = some (w', t')) (_hfailed : t'.pc = .done (.error e)) :
    ServesLive w' t.service.id live socket ↔ ∀ x, Answer.started x ∉ answers := by
  have hpc : DeployTask.free t.pc = true ∧ t.phase = .preparing := by
    rcases ht with ⟨_, _, _, rfl⟩ | ⟨_, _, _, rfl⟩ <;> exact ⟨rfl, rfl⟩
  have hpath : t.OnPath := DeployTask.onPath_of_free hpc.1
  constructor
  · intro hserves x hx
    obtain ⟨before, after, rfl⟩ := List.append_of_mem hx
    obtain ⟨s1, hbefore, hrun⟩ := exec_append hrun
    obtain ⟨s2, hstart, hafter⟩ := exec_cons hrun
    -- up to the start the task stays on its path
    have hs1 : s1.2.OnPath ∧ s1.2.service = t.service ∧ s1.2.deploymentId = t.deploymentId := by
      refine exec_invariant_all (fun s => s.2.OnPath ∧ s.2.service = t.service ∧
        s.2.deploymentId = t.deploymentId) ?_ ⟨hpath, rfl, rfl⟩ hbefore
      rintro s a s' ⟨hs, hsvc, hid⟩ hstep
      obtain ⟨hid', hsvc'⟩ := deployStep_fixed hstep
      refine ⟨?_, hsvc'.trans hsvc, hid'.trans hid⟩
      obtain ⟨effect, pc, hnext, -, ht'⟩ := deployStep_eq hstep
      rw [ht']
      exact next_onPath hs hnext
    have hs2 : PastStart t.service.id live s2 :=
      started_step hs1.1 (by rw [hs1.2.1]) (by rw [hs1.2.2]; exact hnew) hstart
    have hend : PastStart t.service.id live (w', t') :=
      exec_invariant_all _ (fun s a s' hs hstep => pastStart_step hs hstep) hs2 hafter
    obtain ⟨-, -, child, hchild, hdep⟩ := hserves
    exact hend.replaced child hchild hdep
  · intro hnone
    have hanswers : ∀ a ∈ answers, ∀ x, a ≠ Answer.started x := by
      rintro a ha x rfl
      exact hnone x ha
    have hend : Unstarted t.service.id live socket (w', t') :=
      exec_invariant_mem _ (fun s a s' hs ha hstep => unstarted_step hs ha hstep)
        ⟨hpath, hplain, .inl hpc.2, hlive⟩ hanswers hrun
    exact hend.live

/-! ## §4. One redeploy of a running service. -/

/-- A plain service without domains. -/
def plainService : ServiceConfig := .plain 1 "web"

/-- Its deployment 3 is promoted and serves on `/run/a.sock`; deployment 4 is pending. -/
def servingWorld : World where
  store := {
    services := AList.insert 1 plainService ∅
    projects := AList.insert 2 ⟨2, [], none⟩ ∅
    deployments := AList.insert 3 ⟨1, .healthy, some "sha256:a"⟩
      (AList.insert 4 ⟨1, .pending, none⟩ ∅)
    artifacts := ["sha256:a"]
    promoted := AList.insert 1 3 ∅
    domains := []
    nextId := 5
    services_id := by
      intro id svc h
      by_cases hid : id = 1
      · subst hid
        rw [AList.lookup_insert] at h
        injection h with h
        rw [← h]
        rfl
      · rw [AList.lookup_insert_ne hid] at h
        cases h
    domain_id_unique := List.nodup_nil
    hostname_unique := List.nodup_nil }
  ctl := .fresh ⟨4000, 4294967296⟩ ⟨0, 0⟩
    ⟨AList.insert ⟨1, 0⟩ ⟨"web", 3, "/run/a.sock"⟩ ∅⟩
    ⟨AList.insert 1 ⟨[⟨deployReplicaId, "/run/a.sock", true⟩], 0, 0⟩ ∅⟩ ∅
  snapshot := ∅
  routes := .empty
  clock := 0

/-- A pull, a start and a failed health check. -/
def unhealthyAnswers : List Answer :=
  [.ok, .acquired "sha256:b", .ok, .ok, .ok, .ok, .started "/run/b.sock", .failed "timeout",
    .stopped .stopped, .ok, .ok]

/-- A pull and a failed start. -/
def startFailedAnswers : List Answer :=
  [.ok, .acquired "sha256:b", .ok, .ok, .ok, .ok, .failed "no cgroup", .ok]

/-- What is left of the service at the end of a run: the promoted row, the child at
index 0, the endpoints, and where the task stands. -/
def leftOver (s : World × DeployTask) :
    Option Uuid × Option TrackedChild × List ReplicaEndpoint × DeployPc :=
  (s.1.store.promotedDeployment 1, s.1.ctl.runtime.children.lookup ⟨1, 0⟩,
    s.1.ctl.ingress.endpoints 1, s.2.pc)

/-- The redeploy of the service as deployment 4. -/
def redeployFour (answers : List Answer) : Option (World × DeployTask) :=
  exec deployStep (servingWorld, .runWithDeps 4 plainService .externalImage) answers

theorem servingWorld_live : ServesLive servingWorld 1 3 "/run/a.sock" :=
  ⟨by decide +kernel, by decide +kernel, ⟨"web", 3, "/run/a.sock"⟩, by decide +kernel, rfl⟩

/-- **The defect.**  A redeploy that fails its health check leaves the promoted
deployment without a workload and without an endpoint. -/
theorem redeploy_unhealthy_drops_live : ServesLive servingWorld 1 3 "/run/a.sock" ∧
      ∃ w' t' e, redeployFour unhealthyAnswers = some (w', t') ∧ t'.pc = .done (.error e) ∧
        w'.store.promotedDeployment 1 = some 3 ∧ ¬ ServesLive w' 1 3 "/run/a.sock" := by
  refine ⟨servingWorld_live, ?_⟩
  obtain ⟨⟨w', t'⟩, hrun, hleft⟩ : ∃ s ∈ redeployFour unhealthyAnswers,
      leftOver s = (some 3, none, [], .done (.error (.health "timeout"))) := by
    decide +kernel
  simp only [leftOver, Prod.mk.injEq] at hleft
  obtain ⟨hpromoted, hchild, -, hpc⟩ := hleft
  refine ⟨w', t', _, hrun, hpc, hpromoted, fun hserves => ?_⟩
  obtain ⟨-, -, child, hsome, -⟩ := hserves
  cases hchild.symm.trans hsome

/-- A redeploy whose start fails leaves the live version serving. -/
theorem redeploy_start_failed_keeps_live :
    ∃ w' t' e, redeployFour startFailedAnswers = some (w', t') ∧ t'.pc = .done (.error e) ∧
      ServesLive w' 1 3 "/run/a.sock" := by
  obtain ⟨⟨w', t'⟩, hrun, hpc⟩ : ∃ s ∈ redeployFour startFailedAnswers,
      s.2.pc = .done (.error (.runtime "no cgroup")) := by
    decide +kernel
  refine ⟨w', t', _, hrun, hpc, ?_⟩
  have hnone : ∀ x, Answer.started x ∉ startFailedAnswers := by
    intro x hx
    simp [startFailedAnswers] at hx
  exact (servesLive_iff_not_started (.inl ⟨4, plainService, .externalImage, rfl⟩) rfl
    (by decide) servingWorld_live hrun hpc).mpr hnone

end Denia.Deploy
