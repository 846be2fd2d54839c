/-
  Denia.Deploy.Phases — the deploy pipeline by what it has already done.

  Twenty program counters fall into six phases: nothing of the new deployment is up
  (preparing), its child runs (wired), it is promoted, its child is being taken down
  again (compensating), the failure is being recorded, the task has ended.
  `next_phase` says once which effects a call can have in each phase; every result
  about the pipeline is derived from it.  `stop_next` does the same for a stop.
-/
import Denia.Deploy.Coordinator

namespace Denia.Deploy

open Autoscale

/-- How far a deploy has come. -/
inductive Phase where
  | preparing
  | wired
  | promoted
  | compensating
  | failing
  | ended (ok : Bool)
  deriving DecidableEq

/-- The phase of a program counter. -/
def DeployPc.phase : DeployPc → Phase
  | .building | .acquire | .redeployPromoted | .redeployArtifact _ | .putArtifact _
  | .setArtifact _ | .starting _ | .handoffPromote | .project _ | .start _ _ => .preparing
  | .health _ | .promote _ => .wired
  | .addReplica _ | .replicaHealthy | .hostnames | .routes _ | .healthyStatus => .promoted
  | .compensateStop _ | .compensateRemove _ => .compensating
  | .failedStatus _ => .failing
  | .done (.ok _) => .ended true
  | .done (.error _) => .ended false

namespace DeployTask

/-- The phase of a deploy. -/
def phase (t : DeployTask) : Phase := t.pc.phase

/-- The phase of `fail`. -/
def failPhase (t : DeployTask) : Phase := if t.recorded then .failing else .ended false

/-- The phase of `failWired`. -/
def failWiredPhase (t : DeployTask) : Phase :=
  if t.service.autoscale.isSome then t.failPhase else .compensating

/-- Counters that only a plain service reaches stand in a plain service's task, and
the hand-off in an autoscaled one's. -/
def OnPath (t : DeployTask) : Prop :=
  match t.pc with
  | .handoffPromote => t.service.autoscale.isSome
  | .project _ | .start _ _ | .health _ | .promote _ | .addReplica _ | .replicaHealthy
  | .compensateStop _ | .compensateRemove _ => t.service.autoscale = none
  | _ => True

end DeployTask

open DeployTask

/-- What a preparing deploy may change: its own row, and the artifacts. -/
inductive Preparatory (t : DeployTask) : Effect → Prop
  | nothing : Preparatory t .nothing
  | building : Preparatory t (.setStatus t.deploymentId .building)
  | starting : Preparatory t (.setStatus t.deploymentId .starting)
  | putArtifact (digest : String) : Preparatory t (.putArtifact digest)
  | setArtifact (digest : String) : Preparatory t (.setArtifact t.deploymentId digest)

/-- What a promoted deploy may change while it is wired up. -/
inductive Wiring (t : DeployTask) : Effect → Prop
  | nothing : Wiring t .nothing
  | addEndpoint (socket : String) (hplain : t.service.autoscale = none) :
      Wiring t (.addEndpoint t.service.id socket)
  | endpointHealthy (hplain : t.service.autoscale = none) :
      Wiring t (.endpointHealthy t.service.id)
  | route (hostnames : List String) : Wiring t (.route (t.routeSpec hostnames))

/-- One call of a deploy, by phases. -/
inductive PhaseMove (t : DeployTask) (answer : Answer) : Phase → Effect → Phase → Prop
  | prepare {effect : Effect} (h : Preparatory t effect) :
      PhaseMove t answer .preparing effect .preparing
  | giveUp {effect : Effect} (h : Preparatory t effect) :
      PhaseMove t answer .preparing effect t.failPhase
  | start (project : Project) (artifact socket : String) (hplain : t.service.autoscale = none) :
      PhaseMove t answer .preparing (.start (t.startRequest project artifact) socket) .wired
  | handOff (hauto : t.service.autoscale.isSome) :
      PhaseMove t answer .preparing (.promote t.service.id t.deploymentId) .promoted
  | halfHandOff {reason : String} (hauto : t.service.autoscale.isSome)
      (hhalf : answer = .halfDone reason) :
      PhaseMove t answer .preparing (.demote t.service.id t.deploymentId) t.failPhase
  | probe : PhaseMove t answer .wired .nothing .wired
  | promote : PhaseMove t answer .wired (.promote t.service.id t.deploymentId) .promoted
  | halfPromote {reason : String} (hhalf : answer = .halfDone reason) :
      PhaseMove t answer .wired (.demote t.service.id t.deploymentId) t.failWiredPhase
  | refuse : PhaseMove t answer .wired .nothing t.failWiredPhase
  | wire {effect : Effect} (h : Wiring t effect) : PhaseMove t answer .promoted effect .promoted
  | breakOff {effect : Effect} (h : Wiring t effect) :
      PhaseMove t answer .promoted effect t.failWiredPhase
  | unfinished : PhaseMove t answer .promoted .nothing t.failPhase
  | finish (hpc : t.pc = .healthyStatus) (hok : answer = .ok) :
      PhaseMove t answer .promoted (.setStatus t.deploymentId .healthy) (.ended true)
  | undo (result : StopResult) (hplain : t.service.autoscale = none) :
      PhaseMove t answer .compensating (.stop ⟨t.service.id, 0⟩ result) .compensating
  | undone (hplain : t.service.autoscale = none) :
      PhaseMove t answer .compensating (.removeEndpoint t.service.id) t.failPhase
  | record (hok : answer = .ok) :
      PhaseMove t answer .failing (.setStatus t.deploymentId .failed) (.ended false)
  | unrecorded : PhaseMove t answer .failing .nothing (.ended false)

section
variable (t : DeployTask)
include t

theorem failPhase_cases : t.failPhase = .failing ∨ t.failPhase = .ended false := by
  unfold failPhase
  split
  · exact .inl rfl
  · exact .inr rfl

/-- A failing task does not go back to an earlier phase. -/
theorem failPhase_late : t.failPhase ≠ .preparing ∧ t.failPhase ≠ .wired := by
  rcases failPhase_cases t with h | h <;> rw [h] <;> simp

theorem failWiredPhase_late : t.failWiredPhase ≠ .preparing ∧ t.failWiredPhase ≠ .wired := by
  unfold failWiredPhase
  split
  · exact failPhase_late t
  · simp

theorem fail_phase (e : DeployError) : (t.fail e).phase = t.failPhase := by
  unfold fail failPhase
  split <;> rfl

theorem failWired_phase (e : DeployError) : (t.failWired e).phase = t.failWiredPhase := by
  unfold failWired failWiredPhase
  split
  · exact fail_phase t e
  · rfl

theorem finalizePc_phase (a : String) : (t.finalizePc a).phase = .preparing := by
  unfold finalizePc
  split <;> rfl

theorem acquirePc_phase : t.acquirePc.phase = .preparing ∨ t.acquirePc.phase = t.failPhase := by
  unfold acquirePc
  split <;> first | exact .inl rfl | exact .inr (fail_phase t _)

end

variable {w : World} {t : DeployTask} {answer : Answer} {effect : Effect} {pc : DeployPc}

/-- **What a call of a deploy can do**, in each phase. -/
theorem next_phase (hpath : t.OnPath) (h : t.next w answer = some (effect, pc)) :
    PhaseMove t answer t.phase effect pc.phase := by
  unfold phase
  unfold DeployTask.OnPath at hpath
  unfold next at h
  have giveUp : ∀ {e : DeployError}, PhaseMove t answer .preparing .nothing (t.fail e).phase :=
    fun {e} => (fail_phase t e).symm ▸ .giveUp .nothing
  have halfHandOff : ∀ {e : DeployError} {reason : String}, t.service.autoscale.isSome →
      answer = .halfDone reason →
      PhaseMove t answer .preparing (.demote t.service.id t.deploymentId) (t.fail e).phase :=
    fun {e _} hauto hhalf => (fail_phase t e).symm ▸ .halfHandOff hauto hhalf
  have halfPromote : ∀ {e : DeployError} {reason : String}, answer = .halfDone reason →
      PhaseMove t answer .wired (.demote t.service.id t.deploymentId) (t.failWired e).phase :=
    fun {e _} hhalf => (failWired_phase t e).symm ▸ .halfPromote hhalf
  have refuse : ∀ {e : DeployError}, PhaseMove t answer .wired .nothing (t.failWired e).phase :=
    fun {e} => (failWired_phase t e).symm ▸ .refuse
  have breakOff : ∀ {e : DeployError} {effect : Effect}, Wiring t effect →
      PhaseMove t answer .promoted effect (t.failWired e).phase :=
    fun {e _} h => (failWired_phase t e).symm ▸ .breakOff h
  have unfinished : ∀ {e : DeployError}, PhaseMove t answer .promoted .nothing (t.fail e).phase :=
    fun {e} => (fail_phase t e).symm ▸ .unfinished
  have undone : ∀ {e : DeployError}, t.service.autoscale = none →
      PhaseMove t answer .compensating (.removeEndpoint t.service.id) (t.fail e).phase :=
    fun {e} h => (fail_phase t e).symm ▸ .undone h
  have finalize : ∀ {a : String} {effect : Effect}, Preparatory t effect →
      PhaseMove t answer .preparing effect (t.finalizePc a).phase :=
    fun {a _} h => (finalizePc_phase t a).symm ▸ .prepare h
  have acquire : PhaseMove t answer .preparing (.setStatus t.deploymentId .building)
      t.acquirePc.phase := by
    rcases acquirePc_phase t with h | h <;> rw [h]
    · exact .prepare .building
    · exact .giveUp .building
  -- one goal for each line of the table; the inner splits are the reads it makes
  split at h
  all_goals try simp only [reduceCtorEq] at h
  all_goals rename_i hpc; rw [hpc] at hpath ⊢
  all_goals try split at h
  all_goals cases h
  all_goals first
    | exact giveUp
    | exact acquire
    | exact finalize .starting
    | exact finalize (.setArtifact _)
    | exact .prepare (.setArtifact _)
    | exact .prepare .nothing
    | exact .prepare (.putArtifact _)
    | exact .handOff hpath
    | exact halfHandOff hpath rfl
    | exact halfPromote rfl
    | exact .start _ _ _ hpath
    | exact .probe
    | exact refuse
    | exact .promote
    | exact .wire (.addEndpoint _ hpath)
    | exact .wire (.endpointHealthy hpath)
    | exact .wire .nothing
    | exact .wire (.route _)
    | exact breakOff .nothing
    | exact breakOff (.route _)
    | exact .undo _ hpath
    | exact undone hpath
    | exact .finish hpc rfl
    | exact unfinished
    | exact .record rfl
    | exact .unrecorded

/-- A start succeeds on a `started` answer, and on no other. -/
theorem next_started (h : t.next w answer = some (effect, pc)) :
    (∃ socket, answer = .started socket) ↔ ∃ request socket, effect = .start request socket := by
  unfold next at h
  split at h
  all_goals try simp only [reduceCtorEq] at h
  all_goals try split at h
  all_goals cases h
  all_goals simp

/-! ## Tasks stay on their path. -/

namespace DeployTask

/-- Counters that any task may stand at. -/
def free : DeployPc → Bool
  | .handoffPromote | .project _ | .start _ _ | .health _ | .promote _ | .addReplica _
  | .replicaHealthy | .compensateStop _ | .compensateRemove _ => false
  | _ => true

theorem onPath_of_free {t : DeployTask} (h : free t.pc = true) : t.OnPath := by
  unfold OnPath
  split
  all_goals first
    | trivial
    | (rename_i hpc; rw [hpc] at h; cases h)

theorem onPath_of_plain {t : DeployTask} (hplain : t.service.autoscale = none)
    (hpc : t.pc ≠ .handoffPromote) : t.OnPath := by
  unfold OnPath
  split
  next h => exact absurd h hpc
  all_goals first | exact hplain | trivial

theorem free_fail (t : DeployTask) (e : DeployError) : free (t.fail e) = true := by
  unfold fail
  split <;> rfl

theorem onPath_fail (t : DeployTask) (e : DeployError) : OnPath { t with pc := t.fail e } :=
  onPath_of_free (free_fail t e)

theorem onPath_failWired (t : DeployTask) (e : DeployError) :
    OnPath { t with pc := t.failWired e } := by
  unfold failWired
  split
  · exact onPath_fail t e
  · next h => exact onPath_of_plain (by simpa using h) (by simp)

theorem onPath_finalizePc (t : DeployTask) (a : String) :
    OnPath { t with pc := t.finalizePc a } := by
  unfold finalizePc
  split
  · next h => exact h
  · next h => exact onPath_of_plain (by simpa using h) (by simp)

theorem onPath_acquirePc (t : DeployTask) : OnPath { t with pc := t.acquirePc } := by
  refine onPath_of_free ?_
  unfold acquirePc
  split <;> first | rfl | exact free_fail t _

end DeployTask

/-- A call keeps a task on its path. -/
theorem next_onPath (hpath : t.OnPath) (h : t.next w answer = some (effect, pc)) :
    DeployTask.OnPath { t with pc := pc } := by
  unfold DeployTask.OnPath at hpath
  unfold next at h
  split at h
  all_goals try simp only [reduceCtorEq] at h
  all_goals rename_i hpc; rw [hpc] at hpath
  all_goals try split at h
  all_goals cases h
  all_goals first
    | exact onPath_fail t _
    | exact onPath_failWired t _
    | exact onPath_acquirePc t
    | exact onPath_finalizePc t _
    | exact trivial
    | exact hpath

/-! ## Calls of a stop. -/

/-- The row a stop has read as promoted. -/
def StopPc.holds : StopPc → Option Uuid
  | .runtimeStop p | .removeReplica p | .routes p => p
  | .stoppedStatus d | .clearPromoted d => some d
  | .readPromoted | .done _ => none

/-- What a call of a stop can do. -/
inductive StopMove (serviceId : Uuid) (db : Store) (u : StopTask) (answer : Answer) :
    Effect → StopPc → Prop
  | read {pc : StopPc} (hpc : u.pc = .readPromoted)
      (hholds : pc.holds = db.promotedDeployment serviceId) :
      StopMove serviceId db u answer .nothing pc
  | tearDown {effect : Effect} {pc : StopPc}
      (heffect : effect = .nothing ∨ (∃ r, effect = .stop ⟨serviceId, 0⟩ r) ∨
        effect = .removeEndpoint serviceId ∨ effect = .unroute serviceId)
      (hpc : ∀ d, u.pc ≠ .clearPromoted d) (hnot : ∀ d, pc ≠ .clearPromoted d)
      (hholds : pc.holds = none ∨ pc.holds = u.pc.holds) : StopMove serviceId db u answer effect pc
  | write (d : Uuid) (hpc : u.pc = .stoppedStatus d) :
      StopMove serviceId db u answer (.setStatus d .stopped) (.clearPromoted d)
  | clear (d : Uuid) (hpc : u.pc = .clearPromoted d) (hok : answer = .ok) :
      StopMove serviceId db u answer (.clearPromoted serviceId) (.done (.ok ()))
  | keep (d : Uuid) (e : DeployError) (hpc : u.pc = .clearPromoted d) (hok : answer ≠ .ok) :
      StopMove serviceId db u answer .nothing (.done (.error e))

/-- **What a call of a stop can do.** -/
theorem stop_next {u : StopTask} {pc : StopPc} (h : u.next w answer = some (effect, pc)) :
    StopMove u.serviceId w.store u answer effect pc := by
  obtain ⟨serviceId, routesOnly, upc⟩ := u
  -- a call that fails before anything is torn down ends the stop
  have gives : ∀ {upc : StopPc} {result : Except DeployError Unit},
      (∀ d, upc ≠ .clearPromoted d) → StopMove serviceId w.store ⟨serviceId, routesOnly, upc⟩ answer
        .nothing (.done result) :=
    fun hpc => .tearDown (.inl rfl) hpc nofun (.inl rfl)
  cases upc with
  | readPromoted =>
    cases answer with
    | ok =>
      cases h
      refine .read rfl ?_
      split <;> rfl
    | failed => cases h; exact gives nofun
    | halfDone | acquired | started | stopped => cases h
  | runtimeStop =>
    cases answer with
    | stopped result =>
      cases h
      refine .tearDown (.inr (.inl ⟨result, rfl⟩)) nofun ?_ ?_
      · intro d
        split <;> nofun
      · split
        · exact .inr rfl
        · exact .inl rfl
    | ok | failed | halfDone | acquired | started => cases h
  | removeReplica =>
    cases answer with
    | ok =>
      cases h
      exact .tearDown (.inr (.inr (.inl rfl))) nofun nofun (.inr rfl)
    | failed | halfDone | acquired | started | stopped => cases h
  | routes promoted =>
    cases answer with
    | ok =>
      simp only [StopTask.next] at h
      split at h <;> cases h
      · exact .tearDown (.inr (.inr (.inr rfl))) nofun nofun (.inl rfl)
      · cases promoted with
        | none => exact .tearDown (.inr (.inr (.inr rfl))) nofun nofun (.inl rfl)
        | some => exact .tearDown (.inr (.inr (.inr rfl))) nofun nofun (.inr rfl)
    | failed => cases h; exact gives nofun
    | halfDone | acquired | started | stopped => cases h
  | stoppedStatus d =>
    cases answer with
    | ok => cases h; exact .write d rfl
    | failed => cases h; exact gives nofun
    | halfDone | acquired | started | stopped => cases h
  | clearPromoted d =>
    cases answer with
    | ok => cases h; exact .clear d rfl rfl
    | failed => cases h; exact .keep d _ rfl nofun
    | halfDone | acquired | started | stopped => cases h
  | done => cases answer <;> cases h

end Denia.Deploy
