/-
  Denia.Deploy.Ownership — WHO owns what of a service is up, over whole histories of
  requests, and what is left when a stop or a delete has succeeded.

  A plain service belongs to the deploy coordinator: one child at index 0, one
  endpoint under the deploy replica id, no registered replica.  An autoscaled
  service belongs to the controller.  Which of the two a stop asks is decided by the
  CURRENT config; `OwnerKept` says which requests keep the two in step.

  Main results: `Request.step_owners`, one such request; `stopped_or_deleted_is_down`, a
  history of them; `stop_leaves_replicas`, the policy is removed while replicas run.
-/
import Denia.Autoscale.Footprint
import Denia.Deploy.Api
import Denia.Deploy.Phases

namespace Denia.Deploy

open Autoscale Lib Store

/-! ## §1. Owners. -/

/-- Everything of the service that is up belongs to the deploy coordinator. -/
structure PlainOwned (c : Controller) (serviceId : Uuid) : Prop where
  child : ∀ index, c.ChildAt serviceId index → index = 0
  endpoint : ∀ replicaId, c.EndpointAt serviceId replicaId → replicaId = deployReplicaId
  noReplica : ∀ replicaId index, ¬ c.registry.At serviceId replicaId index

/-- What is up of a service belongs to the owner its config names. -/
def OwnedBy (c : Controller) (serviceId : Uuid) : Option ServiceConfig → Prop
  | none => Down c serviceId
  | some svc => if svc.autoscale.isSome then Owned c serviceId else PlainOwned c serviceId

variable {c c' : Controller} {serviceId : Uuid} {svc : ServiceConfig} {effect : Effect}
  {w w' : World} {db : Store} {answers : List Answer} {result : Except DeployError Unit}
  {ms : ManagedService} {readable : Bool} {env : Env}

theorem ownedBy_auto (h : svc.autoscale.isSome) :
    OwnedBy c serviceId (some svc) ↔ Owned c serviceId := by
  show (if svc.autoscale.isSome then _ else _) ↔ _
  rw [if_pos h]

theorem ownedBy_plain (h : ¬ svc.autoscale.isSome) :
    OwnedBy c serviceId (some svc) ↔ PlainOwned c serviceId := by
  show (if svc.autoscale.isSome then _ else _) ↔ _
  rw [if_neg h]

/-- Every service is with its owner. -/
def Owners (w : World) : Prop := ∀ serviceId, OwnedBy w.ctl serviceId (w.store.getService serviceId)

theorem Down.ownedBy (h : Down c serviceId) (svc : Option ServiceConfig) :
    OwnedBy c serviceId svc := by
  cases svc with
  | none => exact h
  | some svc =>
    show if svc.autoscale.isSome then _ else _
    split
    · exact h.owned
    · exact ⟨fun i hi => absurd hi (h.noChild i), fun r hr => absurd hr (h.noEndpoint r),
        h.noReplica⟩

theorem PlainOwned.of_shrinks (h : PlainOwned c serviceId) (hshrinks : Shrinks c c' serviceId) :
    PlainOwned c' serviceId :=
  ⟨fun i hi => h.child i (hshrinks.child i hi), fun r hr => h.endpoint r (hshrinks.endpoint r hr),
    fun r i hr => h.noReplica r i (hshrinks.replica r i hr)⟩

/-- A change of the controller's state that takes an autoscaled service through an
owned state, and brings nothing of any other service up. -/
theorem OwnedBy.of_keepsOwner {P : ManagedService → Prop} {svc : Option ServiceConfig}
    (h : OwnedBy c serviceId svc) (hkeeps : KeepsOwner P serviceId c c')
    (hP : ∀ ms, P ms → ms.serviceId = serviceId → ∃ svc', svc = some svc' ∧ svc'.autoscale.isSome) :
    OwnedBy c' serviceId svc := by
  cases svc with
  | none =>
    refine Down.of_shrinks h (hkeeps.shrinks fun ms hms hs => ?_)
    obtain ⟨svc', ⟨⟩, -⟩ := hP ms hms hs
  | some svc =>
    by_cases hauto : svc.autoscale.isSome
    · rw [ownedBy_auto hauto] at h ⊢
      exact hkeeps.owned h
    · rw [ownedBy_plain hauto] at h ⊢
      refine h.of_shrinks (hkeeps.shrinks fun ms hms hs => ?_)
      obtain ⟨svc', ⟨⟩, hauto'⟩ := hP ms hms hs
      exact hauto hauto'

/-- What only takes things down keeps every owner, if it keeps the replicas. -/
theorem OwnedBy.of_shrinks {svc : Option ServiceConfig} (h : OwnedBy c serviceId svc)
    (hshrinks : Shrinks c c' serviceId) (hkept : c'.registry = c.registry) :
    OwnedBy c' serviceId svc :=
  h.of_keepsOwner (P := fun _ => False)
    ⟨fun _ => hshrinks, fun ho => ho.of_shrinks hshrinks fun _ _ hr => hkept ▸ hr⟩
    fun _ hfalse => hfalse.elim

/-! ## §2. The effects of deploy and stop calls. -/

/-- An effect that brings something up does so for a plain service, where the deploy
coordinator keeps it. -/
def Effect.Fits (db : Store) : Effect → Prop
  | .start request _ =>
      request.replicaIndex = 0 ∧
        ∃ svc, db.getService request.serviceId = some svc ∧ svc.autoscale = none
  | .addEndpoint serviceId _ => ∃ svc, db.getService serviceId = some svc ∧ svc.autoscale = none
  | _ => True

/-- No deploy or stop call touches the services table. -/
theorem World.apply_getService (w : World) (effect : Effect) (serviceId : Uuid) :
    (w.apply effect).store.getService serviceId = w.store.getService serviceId := by
  -- a statement that writes a deployment row
  have hrow : ∀ db, (∃ rows, db = { w.store with deployments := rows }) →
      db.getService serviceId = w.store.getService serviceId := by
    rintro _ ⟨rows, rfl⟩
    rfl
  cases effect with
  | setStatus d status => exact hrow _ (w.store.updateDeploymentStatus_eq d status)
  | setArtifact d digest => exact hrow _ (w.store.setDeploymentArtifact_eq d digest)
  | promote s d | demote s d =>
    exact hrow (w.store.demoteOutgoing s d) (w.store.demoteOutgoing_eq s d)
  | route | unroute => exact congrArg (·.getService serviceId) (w.putSnapshot_store _)
  | _ => rfl

/-- Effects that bring nothing up. -/
def Effect.lowers : Effect → Bool
  | .start _ _ | .addEndpoint _ _ => false
  | _ => true

theorem Effect.fits_of_lowers (h : effect.lowers = true) (db : Store) : effect.Fits db := by
  cases effect with
  | start | addEndpoint => cases h
  | _ => trivial

theorem Effect.shrinks (h : effect.lowers = true) (w : World) (serviceId : Uuid) :
    Shrinks w.ctl (w.apply effect).ctl serviceId ∧
      (w.apply effect).ctl.registry = w.ctl.registry := by
  cases effect with
  | start | addEndpoint => cases h
  | stop instanceId result => exact ⟨shrinks_stop w.ctl instanceId result serviceId, rfl⟩
  | endpointHealthy =>
    refine ⟨⟨fun _ h => h, ?_, fun _ _ h => h⟩, rfl⟩
    rintro r ⟨e, he, rfl⟩
    exact Pools.mem_endpoints_setReplicaHealthy he
  | removeEndpoint =>
    refine ⟨⟨fun _ h => h, ?_, fun _ _ h => h⟩, rfl⟩
    rintro r ⟨e, he, rfl⟩
    exact ⟨e, (Pools.mem_endpoints_removeReplica he).1, rfl⟩
  | route | unroute =>
    exact (w.putSnapshot_ctl _).symm ▸ ⟨Shrinks.refl w.ctl serviceId, rfl⟩
  | _ => exact ⟨Shrinks.refl _ _, rfl⟩

/-- What a deploy coordinator's start or endpoint does to the owners: the plain service
it is for may get it, no other service does. -/
theorem OwnedBy.of_plain {owner : Uuid} (h : OwnedBy w.ctl serviceId (w.store.getService serviceId))
    (hsvc : w.store.getService owner = some svc) (hauto : svc.autoscale = none)
    (hother : serviceId ≠ owner → Shrinks w.ctl c' serviceId)
    (hself : PlainOwned w.ctl owner → PlainOwned c' owner) (hreg : c'.registry = w.ctl.registry) :
    OwnedBy c' serviceId (w.store.getService serviceId) := by
  by_cases hs : serviceId = owner
  · subst hs
    have hnot : ¬ svc.autoscale.isSome := by rw [hauto]; simp
    rw [hsvc, ownedBy_plain hnot] at h ⊢
    exact hself h
  · exact h.of_shrinks (hother hs) hreg

/-- **An effect that fits keeps every service with its owner.** -/
theorem Effect.apply_ownedBy (hfits : effect.Fits w.store)
    (h : OwnedBy w.ctl serviceId (w.store.getService serviceId)) :
    OwnedBy (w.apply effect).ctl serviceId (w.store.getService serviceId) := by
  by_cases hlow : effect.lowers = true
  · obtain ⟨hshrinks, hreg⟩ := effect.shrinks hlow w serviceId
    exact h.of_shrinks hshrinks hreg
  cases effect with
  | start request socket =>
    obtain ⟨hindex, svc, hsvc, hauto⟩ := hfits
    have hchild : ∀ {s i}, (w.apply (.start request socket)).ctl.ChildAt s i →
        w.ctl.ChildAt s i ∨ (s = request.serviceId ∧ i = 0) := by
      rintro s i ⟨child, hi⟩
      have hi : (w.ctl.runtime.started request socket).children.lookup ⟨s, i⟩ = some child := hi
      rw [Runtime.lookup_started] at hi
      split at hi
      next heq =>
        injection heq with hs heq
        exact .inr ⟨hs, heq.trans hindex⟩
      next => exact .inl ⟨child, hi⟩
    refine h.of_plain hsvc hauto (fun hne => ⟨fun i hi => ?_, fun _ h => h, fun _ _ h => h⟩)
      (fun hp => ⟨fun i hi => ?_, hp.endpoint, hp.noReplica⟩) rfl
    · exact (hchild hi).resolve_right fun hs => hne hs.1
    · exact (hchild hi).elim (hp.child i) (·.2)
  | addEndpoint =>
    obtain ⟨svc, hsvc, hauto⟩ := hfits
    refine h.of_plain hsvc hauto (fun hne => ⟨fun _ h => h, ?_, fun _ _ h => h⟩) (fun hp =>
      ⟨hp.child, ?_, hp.noReplica⟩) rfl
    · rintro r ⟨e, he, rfl⟩
      rcases Pools.mem_endpoints_addReplica he with ⟨hs, -⟩ | he
      · exact absurd hs hne
      · exact ⟨e, he, rfl⟩
    · rintro r ⟨e, he, rfl⟩
      rcases Pools.mem_endpoints_addReplica he with ⟨-, hid⟩ | he
      · exact hid
      · exact hp.endpoint _ ⟨e, he, rfl⟩
  | _ => exact absurd rfl hlow

theorem Owners.apply (h : Owners w) (hfits : effect.Fits w.store) : Owners (w.apply effect) := by
  intro serviceId
  rw [w.apply_getService]
  exact Effect.apply_ownedBy hfits (h serviceId)

/-! ## §3. A deploy. -/

variable {t : DeployTask}

/-- A deploy whose captured config is the stored one brings things up only where they
belong. -/
theorem PhaseMove.fits {answer : Answer} {phase phase' : Phase}
    (hstored : db.getService t.service.id = some t.service)
    (h : PhaseMove t answer phase effect phase') : effect.Fits db := by
  cases h with
  | start _ _ _ hplain => exact ⟨rfl, t.service, hstored, hplain⟩
  | wire h | breakOff h =>
    cases h with
    | addEndpoint _ hplain => exact ⟨t.service, hstored, hplain⟩
    | _ => trivial
  | prepare h | giveUp h => cases h <;> trivial
  | _ => trivial

/-- **A deploy keeps every service with its owner**, and the services as they are. -/
theorem runDeploy_owners (howners : Owners w) (hpath : t.OnPath)
    (hstored : w.store.getService t.service.id = some t.service)
    (h : w.runDeploy t answers = some (w', result)) :
    Owners w' ∧ ∀ s, w'.store.getService s = w.store.getService s := by
  unfold World.runDeploy at h
  split at h <;> cases h
  next hrun =>
    -- the invariant: owners kept, table unchanged, task on its path with its config
    obtain ⟨ho, hsame, -⟩ := exec_invariant_all
      (fun (s : World × DeployTask) => Owners s.1 ∧
        (∀ id, s.1.store.getService id = w.store.getService id) ∧
        s.2.service = t.service ∧ s.2.OnPath)
      (by
        rintro ⟨w1, t1⟩ answer ⟨w2, t2⟩ ⟨ho, hsame, hsvc, hp⟩ hstep
        obtain ⟨effect, pc, hnext, rfl, rfl⟩ := deployStep_eq hstep
        have hst : w1.store.getService t1.service.id = some t1.service := by
          rw [hsvc, hsame, hstored]
        exact ⟨ho.apply ((next_phase hp hnext).fits hst),
          fun id => (w1.apply_getService effect id).trans (hsame id), hsvc, next_onPath hp hnext⟩)
      ⟨howners, fun _ => rfl, rfl, hpath⟩ hrun
    exact ⟨ho, hsame⟩

/-! ## §4. A stop. -/

/-- The stop has passed the call that stops the child. -/
def StopPc.childGone : StopPc → Bool
  | .removeReplica _ | .routes _ | .stoppedStatus _ | .clearPromoted _ | .done (.ok _) => true
  | _ => false

/-- The stop has passed the call that removes the endpoint. -/
def StopPc.endpointGone : StopPc → Bool
  | .routes _ | .stoppedStatus _ | .clearPromoted _ | .done (.ok _) => true
  | _ => false

variable {u : StopTask}

/-- A call of a stop brings nothing up; it passes the stop of the child, and the
removal of the endpoint, only by making them. -/
theorem stop_next_gone {answer : Answer} {pc : StopPc} (h : u.next w answer = some (effect, pc)) :
    effect.lowers = true ∧
      (u.routesOnly = false →
        (pc.childGone = true → u.pc.childGone = true ∨ effect = .stop ⟨u.serviceId, 0⟩ .stopped) ∧
          (pc.endpointGone = true →
            u.pc.endpointGone = true ∨ effect = .removeEndpoint u.serviceId)) := by
  unfold StopTask.next at h
  split at h
  all_goals try simp only [reduceCtorEq] at h
  all_goals rename_i hpc
  all_goals rw [hpc]
  all_goals try split at h
  all_goals cases h
  all_goals refine ⟨rfl, fun hplain => ?_⟩
  all_goals simp_all [StopPc.childGone, StopPc.endpointGone]

/-- **A stop keeps every service with its owner**; once it has succeeded, the child and
the endpoint of a plain service are gone. -/
theorem runStop_owners (howners : Owners w) (hstart : u.pc = .readPromoted)
    (h : w.runStop u answers = some (w', result)) :
    Owners w' ∧ (∀ s, w'.store.getService s = w.store.getService s) ∧
      (∀ s, Shrinks w.ctl w'.ctl s) ∧
      (result = .ok () → u.routesOnly = false →
        ¬ w'.ctl.ChildAt u.serviceId 0 ∧ ¬ w'.ctl.EndpointAt u.serviceId deployReplicaId) := by
  unfold World.runStop at h
  split at h <;> cases h
  next hrun =>
    -- what is gone stays gone: a stop only takes away
    obtain ⟨ho, hsame, hshr, -, -, hgone⟩ := exec_invariant_all
      (fun (s : World × StopTask) => Owners s.1 ∧
        (∀ id, s.1.store.getService id = w.store.getService id) ∧
        (∀ id, Shrinks w.ctl s.1.ctl id) ∧
        s.2.serviceId = u.serviceId ∧ s.2.routesOnly = u.routesOnly ∧
        (u.routesOnly = false →
          (s.2.pc.childGone = true → ¬ s.1.ctl.ChildAt u.serviceId 0) ∧
          (s.2.pc.endpointGone = true → ¬ s.1.ctl.EndpointAt u.serviceId deployReplicaId)))
      (by
        rintro ⟨w1, u1⟩ answer ⟨w2, u2⟩ ⟨ho, hsame, hshr, hid, honly, hgone⟩ hstep
        obtain ⟨effect, pc, hnext, rfl, rfl⟩ := stopStep_eq hstep
        obtain ⟨hlow, hpass⟩ := stop_next_gone hnext
        have hless := fun id => (effect.shrinks hlow w1 id).1
        refine ⟨ho.apply (effect.fits_of_lowers hlow w1.store), fun id => ?_,
          fun id => (hshr id).trans (hless id), hid, honly, fun hplain => ⟨fun hpc => ?_,
          fun hpc => ?_⟩⟩
        · exact (w1.apply_getService effect id).trans (hsame id)
        · rcases (hpass (honly.trans hplain)).1 hpc with hbefore | rfl
          · exact fun hc => (hgone hplain).1 hbefore ((hless _).child _ hc)
          · rintro ⟨child, hc⟩
            exact (Runtime.lookup_stop hc).2 (by simp) (by rw [hid])
        · rcases (hpass (honly.trans hplain)).2 hpc with hbefore | rfl
          · exact fun he => (hgone hplain).2 hbefore ((hless _).endpoint _ he)
          · rintro ⟨e, he, hdeploy⟩
            exact (Pools.mem_endpoints_removeReplica he).2 hid.symm hdeploy)
      ⟨howners, fun _ => rfl, fun _ => Shrinks.refl _ _, rfl, rfl, fun _ => by
        simp [hstart, StopPc.childGone, StopPc.endpointGone]⟩ hrun
    refine ⟨ho, hsame, hshr, fun hok hplain => ?_⟩
    subst hok
    exact ⟨(hgone hplain).1 rfl, (hgone hplain).2 rfl⟩

/-! ## §5. The catalog. -/

/-- The catalog builds entries for autoscaled services only. -/
theorem Store.catalogBuild_some (h : db.catalogBuild svc = some ms) :
    ms.serviceId = svc.id ∧ svc.autoscale.isSome := by
  unfold catalogBuild at h
  cases hpolicy : svc.autoscale with
  | none =>
    simp [hpolicy] at h
  | some =>
    rw [hpolicy] at h
    repeat' split at h
    all_goals cases h
    exact ⟨rfl, rfl⟩

theorem Store.mem_catalogAll (h : ms ∈ db.catalogAll) :
    ∃ svc, db.getService ms.serviceId = some svc ∧ svc.autoscale.isSome := by
  obtain ⟨svc, hsvc, hbuild⟩ := List.mem_filterMap.mp h
  obtain ⟨hid, hauto⟩ := catalogBuild_some hbuild
  rw [hid]
  exact ⟨svc, mem_listServices.mp hsvc, hauto⟩

theorem World.resolved_some (h : w.resolved serviceId readable = some ms) :
    ms.serviceId = serviceId ∧
      ∃ svc, w.store.getService serviceId = some svc ∧ svc.autoscale.isSome := by
  unfold World.resolved at h
  split at h
  next =>
    obtain ⟨svc, hfind, hbuild⟩ := Option.bind_eq_some_iff.mp h
    obtain ⟨hid, hauto⟩ := catalogBuild_some hbuild
    have hsid : svc.id = serviceId := by simpa using List.find?_some hfind
    refine ⟨hid.trans hsid, svc, ?_, hauto⟩
    rw [← hsid]
    exact mem_listServices.mp (List.mem_of_find?_eq_some hfind)
  next => cases h

/-- **A controller operation on catalog entries keeps every service with its owner.** -/
theorem control_owners (henv : StopsUntrack env) (howners : Owners w) {op : Op}
    (hops : ∀ ms ∈ op.services,
      ∃ svc, w.store.getService ms.serviceId = some svc ∧ svc.autoscale.isSome) :
    Owners (w.control env op) := by
  intro serviceId
  refine (howners serviceId).of_keepsOwner (op.run_footprint henv w.ctl serviceId) ?_
  intro ms hms hs
  subst hs
  exact hops ms hms

theorem resolved_toList : ∀ ms ∈ (w.resolved serviceId readable).toList,
      ∃ svc, w.store.getService ms.serviceId = some svc ∧ svc.autoscale.isSome := by
  intro ms hms
  obtain ⟨hid, hsvc⟩ := World.resolved_some (Option.mem_toList.mp hms)
  rwa [hid]

/-! ## §6. The handlers on the database. -/

/-! The domain handlers leave the services and what is up alone. -/

theorem applyRoutes_keeps (w : World) :
    w.applyRoutes.1.ctl = w.ctl ∧ w.applyRoutes.1.store = w.store :=
  ⟨w.putSnapshot_ctl _, w.putSnapshot_store _⟩

theorem verifyServiceDomain_keeps (cfg : ApiConfig) (serviceId domainId : Uuid) (verified : Bool)
    (w : World) : (w.verifyServiceDomain cfg serviceId domainId verified).1.ctl = w.ctl ∧
      ∀ id, (w.verifyServiceDomain cfg serviceId domainId verified).1.store.getService id
        = w.store.getService id := by
  unfold World.verifyServiceDomain
  repeat' split
  all_goals try exact ⟨rfl, fun _ => rfl⟩
  next d _ _ _ _ =>
    have hkeeps := applyRoutes_keeps (w.onStore (·.updateServiceDomainStatus d.id .verified))
    exact ⟨hkeeps.1, fun id => congrArg (·.getService id) hkeeps.2⟩

theorem deleteServiceDomainHandler_keeps (serviceId domainId : Uuid) (w : World) :
    (w.deleteServiceDomainHandler serviceId domainId).1.ctl = w.ctl ∧
      ∀ id, (w.deleteServiceDomainHandler serviceId domainId).1.store.getService id
        = w.store.getService id := by
  unfold World.deleteServiceDomainHandler
  repeat' split
  all_goals try exact ⟨rfl, fun _ => rfl⟩
  have hkeeps := applyRoutes_keeps (w.onStore (·.deleteServiceDomain domainId))
  exact ⟨hkeeps.1, fun id => congrArg (·.getService id) hkeeps.2⟩

/-! ## §7. Histories. -/

/-- The request keeps the config and the owner of every service in step: the policy is
added or removed, and a service is deleted, only while nothing of it is up; an
autoscaled service is stopped only while the catalog resolves it, unless nothing of
it is up. -/
def OwnerKept (w : World) : Request → Prop
  | .putService service _ =>
      ∀ old ∈ w.store.listServices, old.projectId = service.projectId → old.name = service.name →
        old.autoscale.isSome = service.autoscale.isSome ∨ Down w.ctl old.id
  | .deleteService serviceId => Down w.ctl serviceId
  | .stop serviceId _ readable =>
      ∀ svc, w.store.getService serviceId = some svc → svc.autoscale.isSome →
        w.resolved serviceId readable = none → Down w.ctl serviceId
  | _ => True

theorem Owners.of_same (h : Owners w) (hctl : w'.ctl = w.ctl)
    (hstore : ∀ id, w'.store.getService id = w.store.getService id) : Owners w' := by
  intro serviceId
  rw [hctl, hstore]
  exact h serviceId

variable {cfg : ApiConfig}

theorem putService_owners {service : ServiceConfig} {accepted : Bool} (h : Owners w)
    (hkept : OwnerKept w (.putService service accepted)) :
    Owners (Request.onStore w (putServiceHandler cfg accepted service)).1 := by
  rcases w.store.putServiceHandler_cases cfg accepted service with
    hsame | ⟨saved, hauto, hrow, hadded⟩
  · exact h.of_same rfl hsame.getService
  · intro serviceId
    have hget : (Request.onStore w (putServiceHandler cfg accepted
      service)).1.store.getService serviceId = (w.store.putService saved).getService serviceId :=
      hadded.getService serviceId
    rw [hget, getService_putService]
    by_cases hid : serviceId = saved.id
    · rw [if_pos hid]
      have howner := h serviceId
      cases hold : w.store.getService serviceId with
      | none =>
        rw [hold] at howner
        exact Down.ownedBy howner _
      | some old =>
        rw [hold] at howner
        have holdid := w.store.services_id _ old hold
        obtain ⟨hproject, hname⟩ := hrow old (hid ▸ hold)
        have hmem : old ∈ w.store.listServices := mem_listServices.mpr (holdid ▸ hold)
        rcases hkept old hmem hproject hname with hsome | hdown
        · -- the owner stays: both configs have a policy, or neither has
          rw [← hauto] at hsome
          unfold OwnedBy at howner ⊢
          simp only [hsome] at howner
          exact howner
        · exact Down.ownedBy (holdid ▸ hdown) _
    · rw [if_neg hid]
      exact h serviceId

theorem deleteService_owners (h : Owners w) (hkept : Down w.ctl serviceId) :
    Owners (Request.onStore w (deleteServiceHandler serviceId)).1 := by
  unfold Request.onStore deleteServiceHandler
  split
  next => exact h
  next =>
    intro id
    show OwnedBy w.ctl id ((w.store.deleteService serviceId).getService id)
    rw [getService_deleteService]
    split
    next hid => exact hid ▸ hkept
    next => exact h id

variable {result : Except ApiError Unit}

theorem deploy_owners (henv : StopsUntrack env) {request : DeploymentRequest} (h : Owners w)
    (hrun : w.createDeployment env serviceId request answers readable = some (w', result)) :
    Owners w' := by
  unfold World.createDeployment at hrun
  split at hrun
  next =>
    cases hrun
    exact h
  next svc hsvc =>
    have hid : svc.id = serviceId := w.store.services_id _ svc hsvc
    have hstored : (w.spawnDeploy svc request).1.store.getService svc.id = some svc := hid ▸ hsvc
    have hstart : Owners (w.spawnDeploy svc request).1 := h.of_same rfl fun _ => rfl
    have hpath : (w.spawnDeploy svc request).2.OnPath := trivial
    split at hrun
    next => cases hrun
    next hdeploy =>
      cases hrun
      exact (runDeploy_owners hstart hpath hstored hdeploy).1
    next hdeploy =>
      have howners := (runDeploy_owners hstart hpath hstored hdeploy).1
      split at hrun <;> cases hrun
      · exact control_owners henv howners resolved_toList
      · exact howners

/-- **A stop that keeps the owner**: every service stays with its owner, and when it
succeeds nothing of the service is up. -/
theorem stop_owners (henv : StopsUntrack env) (h : Owners w)
    (hkept : OwnerKept w (.stop serviceId answers readable))
    (hrun : w.stopCommand env serviceId answers readable = some (w', result)) :
    Owners w' ∧ (result = .ok () → Down w'.ctl serviceId) := by
  unfold World.stopCommand at hrun
  split at hrun
  next =>
    cases hrun
    exact ⟨h, fun hok => by cases hok⟩
  next svc hsvc =>
    have hid : svc.id = serviceId := w.store.services_id _ svc hsvc
    rw [hid] at hrun
    split at hrun <;> obtain ⟨⟨w1, result1⟩, hstop, heq⟩ := Option.map_eq_some_iff.mp hrun <;>
      cases heq
    next hauto =>
      have hdrained : Owners (w.control env (.drainAll serviceId (w.resolved serviceId
          readable))) := control_owners henv h resolved_toList
      obtain ⟨howners, -, hshrinks, -⟩ := runStop_owners hdrained rfl hstop
      refine ⟨howners, fun _ => ?_⟩
      -- after the drain nothing is registered, so nothing is up
      refine Down.of_shrinks ?_ (hshrinks serviceId)
      cases hres : w.resolved serviceId readable with
      | none => exact hkept svc hsvc hauto hres
      | some ms =>
        have howned : Owned (w.control env (.drainAll serviceId (some ms))).ctl serviceId := by
          have howner : OwnedBy _ serviceId (w.store.getService serviceId) := hdrained serviceId
          rw [hres, hsvc] at howner
          exact (ownedBy_auto hauto).mp howner
        refine howned.down fun r i hat => ?_
        have hms : ms.serviceId = serviceId := (World.resolved_some hres).1
        exact drainAllReplicas_drained ms w.ctl r i (hms ▸ hat)
    next hplain =>
      obtain ⟨howners, hsame, -, hgone⟩ := runStop_owners h rfl hstop
      refine ⟨howners, fun hok => ?_⟩
      have hok1 : result1 = .ok () := by
        cases result1 with
        | error => cases hok
        | ok => rfl
      obtain ⟨hchild, hendpoint⟩ := hgone hok1 rfl
      have howned := howners serviceId
      rw [hsame, hsvc, ownedBy_plain hplain] at howned
      exact ⟨fun i hi => hchild (howned.child i hi ▸ hi),
        fun r hr => hendpoint (howned.endpoint r hr ▸ hr), howned.noReplica⟩

/-- **One request of a history keeps every service with its owner.** -/
theorem Request.step_owners (henv : StopsUntrack env) {r : Request} (h : Owners w)
    (hkept : OwnerKept w r) (hstep : r.step cfg env w = some w') : Owners w' := by
  obtain ⟨⟨w1, result⟩, hrun, rfl⟩ := Option.map_eq_some_iff.mp hstep
  cases r with
  | putService =>
    cases hrun
    exact putService_owners h hkept
  | deleteService =>
    cases hrun
    exact deleteService_owners h hkept
  | createDomain serviceId hostname =>
    cases hrun
    exact h.of_same rfl (w.store.createServiceDomain_pending cfg serviceId hostname).getService
  | verifyDomain serviceId domainId verified =>
    have hkeeps := verifyServiceDomain_keeps cfg serviceId domainId verified w
    rw [Option.some.inj hrun] at hkeeps
    exact h.of_same hkeeps.1 hkeeps.2
  | deleteDomain serviceId domainId =>
    have hkeeps := deleteServiceDomainHandler_keeps serviceId domainId w
    rw [Option.some.inj hrun] at hkeeps
    exact h.of_same hkeeps.1 hkeeps.2
  | deploy => exact deploy_owners henv h hrun
  | stop => exact (stop_owners henv h hkept hrun).1
  | tick =>
    cases hrun
    exact control_owners henv h fun ms hms =>
      mem_catalogAll (List.mem_of_mem_filter hms)
  | activate =>
    cases hrun
    exact control_owners henv h resolved_toList

/-- The service a request stops or deletes. -/
def Request.ends : Request → Option Uuid
  | .stop serviceId _ _ | .deleteService serviceId => some serviceId
  | _ => none

/-- Nothing is up, spelled out. -/
theorem Down.spelled (h : Down c serviceId) :
    (∀ index, c.runtime.children.lookup ⟨serviceId, index⟩ = none) ∧
      c.ingress.endpoints serviceId = [] ∧ c.registry.replicasOf serviceId = [] := by
  refine ⟨fun i => ?_, ?_, ?_⟩
  · exact Option.eq_none_iff_forall_ne_some.mpr fun child hlook => h.noChild i ⟨child, hlook⟩
  · exact List.eq_nil_iff_forall_not_mem.mpr fun e he => h.noEndpoint _ ⟨e, he, rfl⟩
  · refine List.eq_nil_iff_forall_not_mem.mpr fun r hr => ?_
    obtain ⟨hr, hs⟩ := ReplicaRegistry.mem_replicasOf.mp hr
    exact h.noReplica _ _ ⟨r, hr, hs, rfl, rfl⟩

/-- **When a stop or a delete has succeeded, nothing of the service is up**, in every
history whose requests keep the config and the owner in step. -/
theorem stopped_or_deleted_is_down {cfg : ApiConfig} {env : Env} (henv : StopsUntrack env)
    {w0 w w' : World} {history : List Request} {last : Request} {serviceId : Uuid}
    (hfresh : ∀ s, Down w0.ctl s)
    (hkept : Guarded (fun w (r : Request) => r.step cfg env w) OwnerKept w0 (history ++ [last]))
    (hrun : exec (fun w (r : Request) => r.step cfg env w) w0 history = some w)
    (hends : last.ends = some serviceId) (hok : last.run cfg env w = some (w', .ok ())) :
    (∀ index, w'.ctl.runtime.children.lookup ⟨serviceId, index⟩ = none) ∧
      w'.ctl.ingress.endpoints serviceId = [] ∧ w'.ctl.registry.replicasOf serviceId = [] := by
  obtain ⟨hbefore, hlast⟩ := guarded_append hkept hrun
  have howners : Owners w :=
    exec_invariant Owners (fun _ _ _ h hk hs => Request.step_owners henv h hk hs)
      (fun s => Down.ownedBy (hfresh s) _) hbefore hrun
  refine Down.spelled ?_
  cases last with
  | stop =>
    cases hends
    exact (stop_owners henv howners hlast.1 hok).2 rfl
  | deleteService =>
    cases hends
    obtain rfl := congrArg Prod.fst (Option.some.inj hok)
    exact hlast.1
  | _ => cases hends

/-! ## §8. The policy removed while replicas run. -/

/-- The service `cart`, as a form without an id submits it. -/
def cart (autoscale : Option AutoscalePolicy) : ServiceConfig :=
  { ServiceConfig.plain Uuid.nil "cart" with autoscale := autoscale }

/-- Two replicas or three. -/
def twoReplicas : AutoscalePolicy where
  minReplicas := 2
  maxReplicas := 3
  targetCpuPct := 70
  targetMemPct := none
  scaleDownCooldownS := 120
  idleTimeoutS := 900
  replica_bounds := by decide
  target_percent := by decide
  cooldown_le := by decide

/-- An autoscaled deploy of `cart`, which gets the id 3. -/
def deployedCart : List Request :=
  [.putService (cart (some twoReplicas)) true,
    .deploy 3 .externalImage [.ok, .acquired "sha256:a", .ok, .ok, .ok, .ok, .ok, .ok] true]

/-- What is up of `cart`: a child at index 1, the endpoints, the replicas. -/
def cartUp (w : World) : Bool × Nat × Nat :=
  ((w.ctl.runtime.children.lookup ⟨3, 1⟩).isSome, (w.ctl.ingress.endpoints 3).length,
    (w.ctl.registry.replicasOf 3).length)

/-- Run a history and one more request, which succeeds; what is up of `cart` then. -/
def cartAfter (history : List Request) (last : Request) : Option (Bool × Nat × Nat) :=
  match exec (fun w (r : Request) => r.step ⟨none⟩ calmEnv w) idleWorld history with
  | none => none
  | some w =>
      match last.run ⟨none⟩ calmEnv w with
      | some (w', .ok ()) => some (cartUp w')
      | _ => none

theorem cartAfter_some {history : List Request} {last : Request} {up : Bool × Nat × Nat}
    (h : cartAfter history last = some up) :
    ∃ w w', exec (fun w (r : Request) => r.step ⟨none⟩ calmEnv w) idleWorld history = some w ∧
      last.run ⟨none⟩ calmEnv w = some (w', .ok ()) ∧ cartUp w' = up := by
  unfold cartAfter at h
  split at h
  next => cases h
  next w hw =>
    split at h
    next w' hlast =>
      injection h with h
      exact ⟨w, w', hw, hlast, h⟩
    next => cases h

/-- **The defect.**  The policy of a running service is removed and the service is
stopped: the stop goes to the deploy coordinator and succeeds, and a replica with
its child, its endpoint and its entry in the registry stays. -/
theorem stop_leaves_replicas :
    ∃ w w', exec (fun w (r : Request) => r.step ⟨none⟩ calmEnv w) idleWorld
        (deployedCart ++ [.putService (cart none) true]) = some w ∧
      (Request.stop 3 [.ok, .stopped .stopped, .ok, .ok, .ok, .ok] true).run ⟨none⟩ calmEnv w
        = some (w', .ok ()) ∧
      (∃ child, w'.ctl.runtime.children.lookup ⟨3, 1⟩ = some child) ∧
      w'.ctl.ingress.endpoints 3 ≠ [] ∧ w'.ctl.registry.replicasOf 3 ≠ [] := by
  have hup : cartAfter (deployedCart ++ [.putService (cart none) true])
      (.stop 3 [.ok, .stopped .stopped, .ok, .ok, .ok, .ok] true) = some (true, 2, 2) := by
    decide +kernel
  obtain ⟨w, w', hrun, hlast, hcart⟩ := cartAfter_some hup
  simp only [cartUp, Prod.mk.injEq] at hcart
  obtain ⟨hchild, hendpoints, hreplicas⟩ := hcart
  refine ⟨w, w', hrun, hlast, Option.isSome_iff_exists.mp hchild, fun hnil => ?_, fun hnil => ?_⟩
  · simp [hnil] at hendpoints
  · simp [hnil] at hreplicas

/-- A test that a request keeps the owners. -/
def ownerKept (w : World) : Request → Bool
  | .putService service _ => w.store.listServices.all fun old =>
      old.projectId ≠ service.projectId || old.autoscale.isSome == service.autoscale.isSome
  | .deleteService _ => false
  | .stop serviceId _ readable => (w.resolved serviceId readable).isSome
  | _ => true

theorem ownerKept_spec (w : World) (r : Request) (h : ownerKept w r = true) : OwnerKept w r := by
  cases r with
  | putService =>
    intro old hold hproject _
    have hall := List.all_eq_true.mp h old hold
    simp only [hproject, ne_eq, not_true_eq_false, decide_false, Bool.false_or, beq_iff_eq] at hall
    exact .inl hall
  | deleteService => cases h
  | stop serviceId answers readable =>
    intro svc _ _ hnone
    have h : (w.resolved serviceId readable).isSome = true := h
    simp [hnone] at h
  | _ => trivial

theorem idleWorld_down (s : Uuid) : Down idleWorld.ctl s where
  noChild := by
    rintro i ⟨child, h⟩
    cases h
  noEndpoint := by
    rintro r ⟨e, he, -⟩
    cases he
  noReplica := by
    rintro r i ⟨x, hx, -⟩
    cases hx

/-- The same service with its policy kept is down after the stop. -/
theorem stopped_cart_is_down :
    ∃ w w', exec (fun w (r : Request) => r.step ⟨none⟩ calmEnv w) idleWorld deployedCart
        = some w ∧
      (Request.stop 3 [.ok, .ok, .ok, .ok] true).run ⟨none⟩ calmEnv w = some (w', .ok ()) ∧
      (∀ index, w'.ctl.runtime.children.lookup ⟨3, index⟩ = none) ∧
      w'.ctl.ingress.endpoints 3 = [] ∧ w'.ctl.registry.replicasOf 3 = [] := by
  have hup : cartAfter deployedCart (.stop 3 [.ok, .ok, .ok, .ok] true) = some (false, 0, 0) := by
    decide +kernel
  obtain ⟨w, w', hrun, hlast, -⟩ := cartAfter_some hup
  have hstops : StopsUntrack calmEnv := nofun
  exact ⟨w, w', hrun, hlast, stopped_or_deleted_is_down hstops idleWorld_down
    (guarded_of_checked ownerKept_spec (by decide +kernel)) hrun rfl hlast⟩

end Denia.Deploy
