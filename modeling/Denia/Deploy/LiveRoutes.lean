/-
  Denia.Deploy.LiveRoutes — the live route table against what a restart would rebuild,
  over whole histories of successful requests.

  Three builders keep the table: a deploy writes its own entry (`write_route_table`),
  a domain change refreshes the entries that are there (`apply_routes`), a boot makes
  an entry for every promoted service (`rebuild_routes_on_boot`).  The first two only
  ever serve a REGISTERED service: one whose last deploy found a verified hostname,
  that has not been stopped since, and that has not been without a verified hostname
  at a domain change since.  Histories start with an empty snapshot and an empty table, not
  with those of a boot.

  Main results: `live_routes_registered`, if no registered service is deleted;
  `verified_after_deploy_unrouted`, a hostname verified after the deploy.
-/
import Denia.Deploy.Api

namespace Denia.Deploy

open Autoscale Lib Verification Store

/-! ## §1. The abstract history: which services are registered. -/

/-- The registered services after a successful request that left the world `w`. -/
def registeredAfter (w : World) (registered : List Uuid) : Request → List Uuid
  | .deploy serviceId _ _ _ =>
      if w.store.listVerifiedHostnames serviceId ≠ [] then registered.insert serviceId
      else registered
  | .stop serviceId _ _ => registered.filter (· ≠ serviceId)
  | .verifyDomain _ _ _ | .deleteDomain _ _ =>
      registered.filter fun s => w.store.listVerifiedHostnames s ≠ []
  | _ => registered

/-- One SUCCESSFUL request, with the registered services beside the world. -/
def okStep (cfg : ApiConfig) (env : Env) (s : World × List Uuid) (r : Request) :
    Option (World × List Uuid) :=
  match r.run cfg env s.1 with
  | some (w, .ok ()) => some (w, registeredAfter w s.2 r)
  | _ => none

/-- The table resolves the host to the service. -/
def ResolvesTo (t : RouteTable) (host : String) (serviceId : Uuid) : Prop :=
  ∃ spec, t.resolve host = some spec ∧ spec.serviceId = serviceId

/-! ## §2. What a snapshot resolves. -/

/-- The entries of a snapshot are for their key, at the verified hostnames. -/
def Entries (db : Store) (snapshot : RouteSnapshot) : Prop :=
  ∀ s spec, snapshot.lookup s = some spec →
    spec.serviceId = s ∧ spec.domains = db.listVerifiedHostnames s

/-- The verified hostnames are their own lower-case forms. -/
theorem map_asciiLowercase_verified (db : Store) (serviceId : Uuid) :
    (db.listVerifiedHostnames serviceId).map asciiLowercase
      = db.listVerifiedHostnames serviceId := by
  unfold listVerifiedHostnames
  rw [List.map_map]
  exact List.map_congr_left fun d _ => asciiLowercase_hostname d.hostname

variable {db : Store} {snapshot : RouteSnapshot} {t : RouteTable}
  {P : Uuid → Prop} {w w' w0 : World} {registered : List Uuid} {effect : Effect}
  {answers : List Answer} {u : StopTask} {serviceId domainId id : Uuid} {d : ServiceDomain}
  {env : Env}

/-- A hostname is verified for one service. -/
theorem verified_unique {s s' : Uuid} {name : String} (h : name ∈ db.listVerifiedHostnames s)
    (h' : name ∈ db.listVerifiedHostnames s') : s = s' := by
  obtain ⟨d, hd, hname⟩ := List.mem_map.mp h
  obtain ⟨d', hd', hname'⟩ := List.mem_map.mp h'
  obtain ⟨hd, hs⟩ := List.mem_filter.mp hd
  obtain ⟨hd', hs'⟩ := List.mem_filter.mp hd'
  have hhost : d.hostname = d'.hostname := by
    cases hh : d.hostname
    cases hh' : d'.hostname
    simp_all
  obtain rfl : d = d' := List.inj_on_of_nodup_map db.hostname_unique hd hd' hhost
  simp only [decide_eq_true_eq] at hs hs'
  exact hs.1.symm.trans hs'.1

/-- **What a table built from such a snapshot resolves.** -/
theorem resolvesTo_of_entries (hentries : Entries db snapshot)
    (ht : routeTableFromSnapshot snapshot = .ok t) (host : String) (serviceId : Uuid) :
    ResolvesTo t host serviceId ↔
      (snapshot.lookup serviceId).isSome ∧
        asciiLowercase host ∈ db.listVerifiedHostnames serviceId := by
  have hdomains : ∀ {s spec}, snapshot.lookup s = some spec →
      (asciiLowercase host ∈ spec.domains.map asciiLowercase ↔
        asciiLowercase host ∈ db.listVerifiedHostnames s) := by
    intro s spec hspec
    rw [(hentries s spec hspec).2, map_asciiLowercase_verified]
  have hresolve : ∀ spec, t.resolve host = some spec ↔
      (∃ k, snapshot.lookup k = some spec) ∧
        asciiLowercase host ∈ spec.domains.map asciiLowercase := by
    refine routeTableFromSnapshot_resolve ht ?_
    intro k k' spec spec' hk hk' hin hin'
    obtain rfl := verified_unique ((hdomains hk).mp hin) ((hdomains hk').mp hin')
    exact Option.some.inj (hk.symm.trans hk')
  constructor
  · rintro ⟨spec, hspec, rfl⟩
    obtain ⟨⟨k, hk⟩, hin⟩ := (hresolve spec).mp hspec
    rw [(hentries k spec hk).1]
    exact ⟨Option.isSome_of_mem hk, (hdomains hk).mp hin⟩
  · rintro ⟨hsome, hin⟩
    obtain ⟨spec, hspec⟩ := Option.isSome_iff_exists.mp hsome
    exact ⟨spec, (hresolve spec).mpr ⟨⟨serviceId, hspec⟩, (hdomains hspec).mpr hin⟩,
      (hentries serviceId spec hspec).1⟩

/-! ## §3. The invariant. -/

/-- A change of the database that keeps the verified hostnames, and the services that
meet `P` with their promotion. -/
structure Neutral (P : Uuid → Prop) (db db' : Store) : Prop where
  service : ∀ s, P s → (db.getService s).isSome → (db'.getService s).isSome
  promoted : ∀ s, P s → (db.promotedDeployment s).isSome → (db'.promotedDeployment s).isSome
  verified : ∀ s, db'.listVerifiedHostnames s = db.listVerifiedHostnames s

theorem Neutral.refl (P : Uuid → Prop) (db : Store) : Neutral P db db :=
  ⟨fun _ _ h => h, fun _ _ h => h, fun _ => rfl⟩

theorem Neutral.trans {a b c : Store} (h : Neutral P a b) (h' : Neutral P b c) : Neutral P a c :=
  ⟨fun s hs ha => h'.service s hs (h.service s hs ha),
    fun s hs ha => h'.promoted s hs (h.promoted s hs ha),
    fun s => (h'.verified s).trans (h.verified s)⟩

/-- The live table is the one of the snapshot; the snapshot has an entry, at the
verified hostnames, for the registered services, which exist and are promoted. -/
structure LiveInv (s : World × List Uuid) : Prop where
  built : routeTableFromSnapshot s.1.snapshot = .ok s.1.routes
  entries : Entries s.1.store s.1.snapshot
  registered : ∀ id, id ∈ s.2 ↔ (s.1.snapshot.lookup id).isSome
  running : ∀ id ∈ s.2, (s.1.store.getService id).isSome ∧
    (s.1.store.promotedDeployment id).isSome
  hosted : ∀ id ∈ s.2, s.1.store.listVerifiedHostnames id ≠ []

/-- The invariant from the snapshot the table was built of. -/
theorem LiveInv.of_built {snapshot : RouteSnapshot}
    (hbuilt : w.snapshot = snapshot ∧ routeTableFromSnapshot snapshot = .ok w.routes)
    (hentries : Entries w.store snapshot)
    (hregistered : ∀ id, id ∈ registered ↔ (snapshot.lookup id).isSome)
    (hrunning : ∀ id ∈ registered, (w.store.getService id).isSome ∧
      (w.store.promotedDeployment id).isSome)
    (hhosted : ∀ id ∈ registered, w.store.listVerifiedHostnames id ≠ []) :
    LiveInv (w, registered) := by
  obtain ⟨rfl, htable⟩ := hbuilt
  exact ⟨htable, hentries, hregistered, hrunning, hhosted⟩

/-- A request that leaves the routes alone. -/
theorem LiveInv.of_neutral (h : LiveInv (w, registered)) (hneutral : Neutral P w.store w'.store)
    (hP : ∀ id ∈ registered, P id) (hsnapshot : w'.snapshot = w.snapshot := by rfl)
    (hroutes : w'.routes = w.routes := by rfl) : LiveInv (w', registered) := by
  refine .of_built ⟨hsnapshot, hroutes ▸ h.built⟩ (fun id spec hspec => ?_) h.registered
    (fun id hid => ?_) fun id hid => ?_
  · exact hneutral.verified id ▸ h.entries id spec hspec
  · exact ⟨hneutral.service id (hP id hid) (h.running id hid).1,
      hneutral.promoted id (hP id hid) (h.running id hid).2⟩
  · exact hneutral.verified id ▸ h.hosted id hid

theorem LiveInv.of_same (h : LiveInv (w, registered)) (hstore : w'.store = w.store := by rfl)
    (hsnapshot : w'.snapshot = w.snapshot := by rfl) (hroutes : w'.routes = w.routes := by rfl) :
    LiveInv (w', registered) :=
  h.of_neutral (hstore ▸ Neutral.refl (fun _ => True) _) (fun _ _ => trivial) hsnapshot hroutes

/-! ## §4. Requests that leave the routes alone. -/

theorem PendingAdded.neutral {db' : Store} (h : PendingAdded db db') :
    Neutral (fun _ => True) db db' := by
  refine ⟨fun s _ hs => ?_, fun s _ hs => ?_, h.verified⟩
  · rwa [h.getService]
  · unfold promotedDeployment
    rwa [h.promoted]

theorem putServiceHandler_neutral (cfg : ApiConfig) (accepted : Bool) (service : ServiceConfig)
    (db : Store) : Neutral (fun _ => True) db (db.putServiceHandler cfg accepted service).1 := by
  rcases db.putServiceHandler_cases cfg accepted service with hsame | ⟨saved, -, -, hadded⟩
  · exact hsame.neutral
  · have hsaved : Neutral (fun _ => True) db (db.putService saved) := by
      refine ⟨fun s _ hs => ?_, fun _ _ h => h, fun _ => rfl⟩
      rw [getService_putService]
      split <;> simp [hs]
    exact hsaved.trans hadded.neutral

theorem deleteServiceHandler_neutral (serviceId : Uuid) (db : Store) :
    Neutral (· ≠ serviceId) db (db.deleteServiceHandler serviceId).1 := by
  unfold deleteServiceHandler
  split
  next => exact Neutral.refl _ db
  next =>
    refine ⟨fun s hs h => ?_, fun _ _ h => h, fun _ => rfl⟩
    rwa [getService_deleteService, if_neg hs]

/-! ## §5. A deploy. -/

/-- No call of a deploy touches the domains, and only a stop's clears a promotion. -/
theorem apply_neutral (w : World) (h : ∀ s, effect = .clearPromoted s → ∀ id, P id → id ≠ s) :
    Neutral P w.store (w.apply effect).store := by
  -- a statement that writes a deployment row
  have hrow : ∀ db', (∃ rows, db' = { w.store with deployments := rows }) →
      Neutral P w.store db' := by
    rintro db' ⟨rows, rfl⟩
    exact ⟨fun _ _ h => h, fun _ _ h => h, fun _ => rfl⟩
  cases effect with
  | setStatus d status => exact hrow _ (w.store.updateDeploymentStatus_eq d status)
  | setArtifact d digest => exact hrow _ (w.store.setDeploymentArtifact_eq d digest)
  | demote s d => exact hrow _ (w.store.demoteOutgoing_eq s d)
  | promote s d =>
    refine (hrow _ (w.store.demoteOutgoing_eq s d)).trans
      ⟨fun _ _ h => h, fun id _ hid => ?_, fun _ => rfl⟩
    show (((w.store.demoteOutgoing s d).promoted.insert s d).lookup id).isSome
    by_cases hs : id = s
    · exact hs ▸ Option.isSome_of_mem (AList.lookup_insert _)
    · rwa [AList.lookup_insert_ne hs]
  | clearPromoted s =>
    refine ⟨fun _ _ h => h, fun id hid hsome => ?_, fun _ => rfl⟩
    show ((w.store.promoted.erase s).lookup id).isSome
    rwa [AList.lookup_erase_ne (h s rfl id hid)]
  | route | unroute => exact (w.putSnapshot_store _).symm ▸ Neutral.refl P w.store
  | _ => exact ⟨fun _ _ h => h, fun _ _ h => h, fun _ => rfl⟩

/-- The snapshot and the table are as they were. -/
def Kept (w0 w : World) : Prop := w.snapshot = w0.snapshot ∧ w.routes = w0.routes

/-- The snapshot is the given one, and the table is built from it. -/
def Built (snapshot : RouteSnapshot) (w : World) : Prop :=
  w.snapshot = snapshot ∧ routeTableFromSnapshot snapshot = .ok w.routes

/-- Putting a snapshot in place whose table can be built. -/
theorem built_putSnapshot (h : routeTableFromSnapshot snapshot = .ok t) :
    Built snapshot (w.putSnapshot snapshot) := by
  unfold World.putSnapshot Built
  rw [h]
  exact ⟨rfl, rfl⟩

/-- What a deploy has done to the routes when it stands at a counter; nothing is said
of one that has failed. -/
def DeployTask.Routed (w0 : World) (t : DeployTask) (w : World) : Prop :=
  match t.pc with
  | .addReplica _ | .replicaHealthy | .hostnames =>
      Kept w0 w ∧ (w.store.promotedDeployment t.service.id).isSome
  | .routes hostnames =>
      Kept w0 w ∧ (w.store.promotedDeployment t.service.id).isSome ∧
        hostnames = w.store.listVerifiedHostnames t.service.id ∧ hostnames ≠ []
  | .healthyStatus | .done (.ok _) =>
      (w.store.promotedDeployment t.service.id).isSome ∧
        ((w.store.listVerifiedHostnames t.service.id = [] ∧ Kept w0 w) ∨
          (w.store.listVerifiedHostnames t.service.id ≠ [] ∧
            Built (w0.snapshot.insert t.service.id
              (t.routeSpec (w.store.listVerifiedHostnames t.service.id))) w))
  | .compensateStop _ | .compensateRemove _ | .failedStatus _ | .done (.error _) => True
  | _ => Kept w0 w

theorem kept_onStore {f : Store → Store} (h : Kept w0 w) : Kept w0 (w.onStore f) := h

theorem routed_fail (w0 w : World) (t : DeployTask) (e : DeployError) :
    DeployTask.Routed w0 { t with pc := t.fail e } w := by
  unfold DeployTask.fail
  split <;> trivial

theorem routed_failWired (w0 w : World) (t : DeployTask) (e : DeployError) :
    DeployTask.Routed w0 { t with pc := t.failWired e } w := by
  unfold DeployTask.failWired
  split
  · exact routed_fail w0 w t e
  · trivial

theorem routed_finalizePc (h : Kept w0 w) (t : DeployTask) (artifact : String) :
    DeployTask.Routed w0 { t with pc := t.finalizePc artifact } w := by
  unfold DeployTask.finalizePc
  split <;> exact h

theorem routed_acquirePc (h : Kept w0 w) (t : DeployTask) :
    DeployTask.Routed w0 { t with pc := t.acquirePc } w := by
  unfold DeployTask.acquirePc
  split <;> first | exact h | exact routed_fail w0 w t _

/-- After a promotion the service is promoted. -/
theorem promoted_promote (w : World) (s d : Uuid) :
    ((w.apply (.promote s d)).store.promotedDeployment s).isSome := by
  show (((w.store.demoteOutgoing s d).promoted.insert s d).lookup s).isSome
  rw [AList.lookup_insert]
  rfl

/-- No deploy clears a promotion. -/
theorem next_ne_clearPromoted (w : World) (t : DeployTask) (answer : Answer) (s : Uuid)
    (pc : DeployPc) : t.next w answer ≠ some (.clearPromoted s, pc) := by
  intro h
  unfold DeployTask.next at h
  repeat' split at h
  all_goals cases h

/-- **One call of a deploy** does to the routes what its counter says. -/
theorem next_routed {t : DeployTask} {answer : Answer} {pc : DeployPc} (hr : t.Routed w0 w)
    (h : t.next w answer = some (effect, pc)) :
    DeployTask.Routed w0 { t with pc := pc } (w.apply effect) := by
  unfold DeployTask.Routed at hr
  unfold DeployTask.next at h
  split at h
  all_goals try simp only [reduceCtorEq] at h
  all_goals rename_i hpc
  all_goals simp only [hpc] at hr
  all_goals try split at h
  all_goals cases h
  all_goals first
    | exact routed_fail w0 _ t _
    | exact routed_failWired w0 _ t _
    | exact routed_acquirePc (kept_onStore hr) t
    | exact routed_finalizePc (kept_onStore hr) t _
    | exact hr
    | exact ⟨hr, promoted_promote w _ _⟩
    | trivial
    | skip
  -- left: the two outcomes of the read, the rebuild, and the last status write
  · next hnil => exact ⟨hr.2, .inl ⟨hnil, hr.1⟩⟩
  · next hsome => exact ⟨hr.1, hr.2, rfl, hsome⟩
  · next hostnames _ _ htable =>
      obtain ⟨⟨hsnapshot, -⟩, hpromoted, hhostnames, hsome⟩ := hr
      have hstore : (w.apply (.route (t.routeSpec hostnames))).store = w.store :=
        w.putSnapshot_store _
      show (_ : Prop) ∧ _
      rw [hstore]
      refine ⟨hpromoted, .inr ⟨hhostnames ▸ hsome, ?_⟩⟩
      rw [← hsnapshot]
      show Built (w.snapshot.insert t.service.id (t.routeSpec
        (w.store.listVerifiedHostnames t.service.id))) _
      rw [← hhostnames]
      exact built_putSnapshot htable
  · have hneutral : Neutral (fun _ => True) w.store
        (w.apply (.setStatus t.deploymentId .healthy)).store :=
      apply_neutral w (by intro s h; cases h)
    show (_ : Prop) ∧ _
    rw [hneutral.verified]
    exact ⟨hneutral.promoted _ trivial hr.1, hr.2⟩

/-- **What a successful deploy does to the routes**: with a verified hostname it
writes its entry, without one nothing; the service is promoted. -/
theorem runDeploy_routed {t : DeployTask} (hstart : t.pc = .building)
    (h : w.runDeploy t answers = some (w', .ok ())) : Neutral (fun _ => True) w.store w'.store ∧
      (w'.store.promotedDeployment t.service.id).isSome ∧
      ((w'.store.listVerifiedHostnames t.service.id = [] ∧ Kept w w') ∨
        (w'.store.listVerifiedHostnames t.service.id ≠ [] ∧
          Built (w.snapshot.insert t.service.id
            (t.routeSpec (w'.store.listVerifiedHostnames t.service.id))) w')) := by
  unfold World.runDeploy at h
  split at h <;> cases h
  next d service request recorded hrun =>
    obtain ⟨hneutral, rfl, hrouted⟩ := exec_invariant_all
      (fun (s : World × DeployTask) => Neutral (fun _ => True) w.store s.1.store ∧
        s.2.service = t.service ∧ s.2.Routed w s.1)
      (by
        rintro ⟨w1, t1⟩ answer ⟨w2, t2⟩ ⟨hneutral, hsvc, hrouted⟩ hstep
        obtain ⟨effect, pc, hnext, rfl, rfl⟩ := deployStep_eq hstep
        refine ⟨hneutral.trans (apply_neutral w1 ?_), hsvc, next_routed hrouted hnext⟩
        rintro s rfl
        exact absurd hnext (next_ne_clearPromoted _ _ _ _ _))
      ⟨Neutral.refl _ _, rfl, by
        unfold DeployTask.Routed
        rw [hstart]
        exact ⟨rfl, rfl⟩⟩ hrun
    exact ⟨hneutral, hrouted⟩

/-! ## §6. A stop. -/

/-- What a stop has done to the routes when it stands at a counter. -/
def StopTask.Unrouted (w0 : World) (u : StopTask) (w : World) : Prop :=
  match u.pc with
  | .readPromoted | .runtimeStop _ | .removeReplica _ | .routes _ => Kept w0 w
  | .stoppedStatus _ | .clearPromoted _ | .done (.ok _) =>
      Built (w0.snapshot.erase u.serviceId) w
  | .done (.error _) => True

theorem stop_next_unrouted {answer : Answer} {pc : StopPc} (hu : u.Unrouted w0 w)
    (h : u.next w answer = some (effect, pc)) :
    StopTask.Unrouted w0 { u with pc := pc } (w.apply effect) ∧
      ∀ s, effect = .clearPromoted s → s = u.serviceId := by
  have hbuilt : ∀ {t : RouteTable},
      routeTableFromSnapshot (w.snapshot.erase u.serviceId) = .ok t → Kept w0 w →
      Built (w0.snapshot.erase u.serviceId) (w.apply (.unroute u.serviceId)) := by
    intro t ht hkept
    rw [← hkept.1]
    exact built_putSnapshot ht
  unfold StopTask.Unrouted at hu
  unfold StopTask.next at h
  split at h
  all_goals try simp only [reduceCtorEq] at h
  all_goals rename_i hpc
  all_goals simp only [hpc] at hu
  all_goals repeat' split at h
  all_goals cases h
  all_goals refine ⟨?_, fun s hs => by cases hs <;> rfl⟩
  all_goals first
    | exact hu
    | trivial
    | exact hbuilt (by assumption) hu

/-- **What a successful stop does to the routes**: the entry of the service is gone, and
the table is rebuilt; no other service loses its promotion. -/
theorem runStop_unrouted (hstart : u.pc = .readPromoted)
    (h : w.runStop u answers = some (w', .ok ())) :
    Neutral (· ≠ u.serviceId) w.store w'.store ∧ Built (w.snapshot.erase u.serviceId) w' := by
  unfold World.runStop at h
  split at h <;> cases h
  next sid only hrun =>
    obtain ⟨hneutral, rfl, hun⟩ := exec_invariant_all
      (fun (s : World × StopTask) => Neutral (· ≠ u.serviceId) w.store s.1.store ∧
        s.2.serviceId = u.serviceId ∧ s.2.Unrouted w s.1)
      (by
        rintro ⟨w1, u1⟩ answer ⟨w2, u2⟩ ⟨hneutral, hid, hun⟩ hstep
        obtain ⟨effect, pc, hnext, rfl, rfl⟩ := stopStep_eq hstep
        obtain ⟨hun, hclear⟩ := stop_next_unrouted hun hnext
        refine ⟨hneutral.trans (apply_neutral w1 fun s hs id hne => ?_), hid, hun⟩
        rw [hclear s hs, hid]
        exact hne)
      ⟨Neutral.refl _ _, rfl, by
        unfold StopTask.Unrouted
        rw [hstart]
        exact ⟨rfl, rfl⟩⟩ hrun
    exact ⟨hneutral, hun⟩

/-! ## §7. The requests that build routes keep the invariant. -/

/-- A successful deploy registers the service if it has a verified hostname. -/
theorem LiveInv.deploy {t : DeployTask} (h : LiveInv (w, registered)) (hstart : t.pc = .building)
    (hstored : (w.store.getService t.service.id).isSome)
    (hrun : w.runDeploy t answers = some (w', .ok ())) :
    LiveInv (w', if w'.store.listVerifiedHostnames t.service.id ≠ []
      then registered.insert t.service.id else registered) := by
  obtain ⟨hneutral, hpromoted, ⟨hnil, hkept⟩ | ⟨hsome, hbuilt⟩⟩ := runDeploy_routed hstart hrun
  · rw [if_neg (not_not.mpr hnil)]
    exact h.of_neutral hneutral (fun _ _ => trivial) hkept.1 hkept.2
  · rw [if_pos hsome]
    refine .of_built hbuilt (fun id spec hspec => ?_) (fun id => ?_) (fun id hid => ?_)
      fun id hid => ?_
    · -- the new entry, or an old one under another id
      rcases lookup_insert_cases hspec with ⟨rfl, rfl⟩ | ⟨-, hold⟩
      · exact ⟨rfl, rfl⟩
      · exact hneutral.verified id ▸ h.entries id spec hold
    · rw [List.mem_insert_iff]
      by_cases hid : id = t.service.id
      · subst hid
        simp
      · rw [AList.lookup_insert_ne hid, ← h.registered id]
        simp [hid]
    · rcases List.mem_insert_iff.mp hid with rfl | hid
      · exact ⟨hneutral.service _ trivial hstored, hpromoted⟩
      · exact ⟨hneutral.service id trivial (h.running id hid).1,
          hneutral.promoted id trivial (h.running id hid).2⟩
    · rcases List.mem_insert_iff.mp hid with rfl | hid
      · exact hsome
      · exact hneutral.verified id ▸ h.hosted id hid

/-- A successful stop unregisters the service. -/
theorem LiveInv.stop (h : LiveInv (w, registered)) (hstart : u.pc = .readPromoted)
    (hrun : w.runStop u answers = some (w', .ok ())) :
    LiveInv (w', registered.filter (· ≠ u.serviceId)) := by
  obtain ⟨hneutral, hbuilt⟩ := runStop_unrouted hstart hrun
  have hmem : ∀ {id}, id ∈ registered.filter (· ≠ u.serviceId) ↔
      id ∈ registered ∧ id ≠ u.serviceId := by simp
  refine .of_built hbuilt (fun id spec hspec => ?_) (fun id => ?_) (fun id hid => ?_)
    fun id hid => ?_
  · exact hneutral.verified id ▸ h.entries id spec (lookup_of_erase hspec).2
  · rw [hmem]
    by_cases hid : id = u.serviceId
    · subst hid
      simp
    · rw [AList.lookup_erase_ne hid, ← h.registered id]
      simp [hid]
  · obtain ⟨hid, hne⟩ := hmem.mp hid
    exact ⟨hneutral.service id hne (h.running id hid).1,
      hneutral.promoted id hne (h.running id hid).2⟩
  · exact hneutral.verified id ▸ h.hosted id (hmem.mp hid).1

/-- A snapshot with the entries of the services that make one. -/
theorem lookup_serviceEntries (db : Store) (entry : ServiceConfig → Option RouteSpec)
    {spec : RouteSpec} : (insertAll (·.id) entry db.listServices ∅).lookup id = some spec ↔
      ∃ svc, db.getService id = some svc ∧ entry svc = some spec := by
  rw [lookup_insertAll_empty db.listServices_nodup]
  constructor
  · rintro ⟨svc, hmem, rfl, hsome⟩
    exact ⟨svc, mem_listServices.mp hmem, hsome⟩
  · rintro ⟨svc, hsvc, h⟩
    obtain rfl := db.services_id id svc hsvc
    exact ⟨svc, mem_listServices.mpr hsvc, rfl, h⟩

/-- The entries `apply_routes` makes. -/
theorem lookup_appliedSnapshot (w : World) (id : Uuid) (spec : RouteSpec) :
    w.appliedSnapshot.lookup id = some spec ↔
      ∃ svc, w.store.getService id = some svc ∧ w.store.listVerifiedHostnames id ≠ [] ∧
        (w.snapshot.lookup id).isSome ∧
        spec = routeOf svc (w.store.listVerifiedHostnames id) := by
  refine (lookup_serviceEntries w.store _).trans (exists_congr fun svc => ?_)
  refine and_congr_right fun hsvc => ?_
  rw [World.appliedEntry_eq_some, w.store.services_id id svc hsvc]

theorem answered_ok {result : World × Except DeployError Unit}
    (h : World.answered result = (w, .ok ())) : result = (w, .ok ()) := by
  obtain ⟨w1, result⟩ := result
  injection h with hw hresult
  cases result with
  | error => cases hresult
  | ok => exact congrArg (·, _) hw

/-- A domain change that rebuilds the routes drops the services without a verified
hostname, and refreshes the others. -/
theorem LiveInv.applyRoutes (f : Store → Store) (h : LiveInv (w, registered))
    (hservice : ∀ id, (f w.store).getService id = w.store.getService id)
    (hpromoted : ∀ id, (f w.store).promotedDeployment id = w.store.promotedDeployment id)
    (hrun : (w.onStore f).applyRoutes = (w', .ok ())) :
    LiveInv (w', registered.filter fun s => w'.store.listVerifiedHostnames s ≠ []) := by
  injection hrun with hw hresult
  subst hw
  have hstore : ((w.onStore f).putSnapshot (w.onStore f).appliedSnapshot).store = f w.store :=
    (w.onStore f).putSnapshot_store _
  -- the rebuild succeeded, so the snapshot and its table are in place
  have hbuilt : Built (w.onStore f).appliedSnapshot
      ((w.onStore f).putSnapshot (w.onStore f).appliedSnapshot) := by
    cases htable : routeTableFromSnapshot (w.onStore f).appliedSnapshot with
    | error => simp [htable] at hresult
    | ok => exact built_putSnapshot htable
  have hlook := lookup_appliedSnapshot (w.onStore f)
  refine .of_built hbuilt (fun id spec hspec => ?_) (fun id => ?_) (fun id hid => ?_)
    fun id hid => ?_
  · obtain ⟨svc, hsvc, -, -, rfl⟩ := (hlook id spec).mp hspec
    rw [hstore]
    exact ⟨(w.onStore f).store.services_id id svc hsvc, rfl⟩
  · simp only [hstore, List.mem_filter, decide_eq_true_eq]
    constructor
    · rintro ⟨hreg, hnames⟩
      obtain ⟨svc, hsvc⟩ := Option.isSome_iff_exists.mp (h.running id hreg).1
      exact Option.isSome_iff_exists.mpr ⟨_, (hlook id _).mpr
        ⟨svc, (hservice id).trans hsvc, hnames, (h.registered id).mp hreg, rfl⟩⟩
    · intro hsome
      obtain ⟨spec, hspec⟩ := Option.isSome_iff_exists.mp hsome
      obtain ⟨svc, -, hnames, hold, -⟩ := (hlook id spec).mp hspec
      exact ⟨(h.registered id).mpr hold, hnames⟩
  · rw [hstore, hservice, hpromoted]
    exact h.running id (List.mem_of_mem_filter hid)
  · simpa using List.of_mem_filter hid

/-! ## §8. Histories. -/

theorem domainOf_some (h : db.domainOf serviceId domainId = .ok d) :
    db.getServiceDomain domainId = some d := by
  unfold domainOf at h
  repeat' split at h
  all_goals cases h
  assumption

/-- Marking a row failed that is not verified changes no list of verified hostnames. -/
theorem verified_markFailed (hd : db.getServiceDomain id = some d)
    (hstatus : d.status ≠ .verified) (s : Uuid) :
    (db.updateServiceDomainStatus d.id .failed).listVerifiedHostnames s
      = db.listVerifiedHostnames s := by
  have hid : d.id = id := by simpa using List.find?_some hd
  unfold listVerifiedHostnames
  congr 1
  refine filter_updateFirst fun x hx => ?_
  rw [hid] at hx
  have hx : db.getServiceDomain id = some x := hx
  cases hd.symm.trans hx
  simp [hstatus]

/-- Deleting a row that is not verified changes no list of verified hostnames. -/
theorem verified_deleteUnverified (hd : db.getServiceDomain id = some d)
    (hstatus : d.status ≠ .verified) (s : Uuid) :
    (db.deleteServiceDomain id).listVerifiedHostnames s = db.listVerifiedHostnames s := by
  have hid : d.id = id := by simpa using List.find?_some hd
  have hmem : d ∈ db.domains := List.mem_of_find?_eq_some hd
  unfold listVerifiedHostnames deleteServiceDomain
  rw [List.filter_filter]
  congr 1
  refine List.filter_congr fun x hx => ?_
  by_cases hxid : x.id = id
  · -- the only row of this id is the one that was found
    obtain rfl : x = d :=
      List.inj_on_of_nodup_map db.domain_id_unique hx hmem (hxid.trans hid.symm)
    simp [hstatus]
  · simp [hxid]

section
variable (h : LiveInv (w, registered))
include h

/-- A domain request that leaves the routes alone registers and drops nothing. -/
theorem LiveInv.of_same_verified (hneutral : Neutral (fun _ => True) w.store w'.store)
    (hsnapshot : w'.snapshot = w.snapshot := by rfl) (hroutes : w'.routes = w.routes := by rfl) :
    LiveInv (w', registered.filter fun s => w'.store.listVerifiedHostnames s ≠ []) := by
  have hkept : registered.filter (fun s => w'.store.listVerifiedHostnames s ≠ []) = registered := by
    refine List.filter_eq_self.mpr fun s hs => ?_
    rw [hneutral.verified]
    simpa using h.hosted s hs
  rw [hkept]
  exact h.of_neutral hneutral (fun _ _ => trivial) hsnapshot hroutes

theorem LiveInv.verifyDomain {cfg : ApiConfig} {verified : Bool}
    (hrun : w.verifyServiceDomain cfg serviceId domainId verified = (w', .ok ())) :
    LiveInv (w', registered.filter fun s => w'.store.listVerifiedHostnames s ≠ []) := by
  unfold World.verifyServiceDomain at hrun
  split at hrun
  next => cases hrun
  next d hd =>
    have hd := domainOf_some hd
    split at hrun
    next => cases hrun
    split at hrun
    next =>
      -- already verified: nothing happens
      cases hrun
      exact h.of_same_verified (Neutral.refl _ _)
    next hstatus =>
      split at hrun
      next =>
        exact h.applyRoutes (·.updateServiceDomainStatus d.id .verified)
          (fun _ => rfl) (fun _ => rfl) (answered_ok hrun)
      next =>
        cases hrun
        exact h.of_same_verified
          ⟨fun _ _ h => h, fun _ _ h => h, fun s => verified_markFailed hd hstatus s⟩

theorem LiveInv.deleteDomain
    (hrun : w.deleteServiceDomainHandler serviceId domainId = (w', .ok ())) :
    LiveInv (w', registered.filter fun s => w'.store.listVerifiedHostnames s ≠ []) := by
  unfold World.deleteServiceDomainHandler at hrun
  split at hrun
  next => cases hrun
  next d hd =>
    have hd := domainOf_some hd
    split at hrun
    next =>
      exact h.applyRoutes (·.deleteServiceDomain domainId) (fun _ => rfl) (fun _ => rfl)
        (answered_ok hrun)
    next hstatus =>
      cases hrun
      exact h.of_same_verified
        ⟨fun _ _ h => h, fun _ _ h => h, fun s => verified_deleteUnverified hd hstatus s⟩

theorem LiveInv.createDeployment {request : DeploymentRequest} {readable : Bool}
    (hrun : w.createDeployment env serviceId request answers readable = some (w', .ok ())) :
    LiveInv (w', registeredAfter w' registered (.deploy serviceId request answers readable)) := by
  unfold World.createDeployment at hrun
  split at hrun
  next => cases hrun
  next svc hsvc =>
    have hid : svc.id = serviceId := w.store.services_id _ svc hsvc
    have hspawned : LiveInv ((w.spawnDeploy svc request).1, registered) :=
      h.of_neutral ⟨fun _ _ h => h, fun _ _ h => h, fun _ => rfl⟩ (P := fun _ => True)
        fun _ _ => trivial
    have hstored : ((w.spawnDeploy svc request).1.store.getService svc.id).isSome :=
      Option.isSome_of_mem (hid ▸ hsvc)
    split at hrun
    next => cases hrun
    next => cases hrun
    next w1 hdeploy =>
      have hlive : LiveInv (w1, registeredAfter w1 registered
          (.deploy svc.id request answers readable)) := hspawned.deploy rfl hstored hdeploy
      rw [hid] at hlive
      -- the hand-over to the controller touches neither the store nor the routes
      split at hrun <;> cases hrun
      · exact hlive.of_same
      · exact hlive

theorem LiveInv.stopCommand {readable : Bool}
    (hrun : w.stopCommand env serviceId answers readable = some (w', .ok ())) :
    LiveInv (w', registered.filter (· ≠ serviceId)) := by
  unfold World.stopCommand at hrun
  split at hrun
  next => cases hrun
  next svc hsvc =>
    have hid : svc.id = serviceId := w.store.services_id _ svc hsvc
    rw [hid] at hrun
    split at hrun <;> obtain ⟨result, hstop, heq⟩ := Option.map_eq_some_iff.mp hrun <;>
      rw [answered_ok heq] at hstop
    next =>
      have hdrained : LiveInv (w.control env (.drainAll serviceId (w.resolved serviceId readable)),
          registered) := h.of_same
      exact hdrained.stop rfl hstop
    next => exact h.stop rfl hstop

end

/-- The request deletes no registered service. -/
def KeepsRegistered (s : World × List Uuid) : Request → Prop
  | .deleteService serviceId => serviceId ∉ s.2
  | _ => True

/-- **One successful request** keeps the live table to the registered services. -/
theorem okStep_live {cfg : ApiConfig} {s s' : World × List Uuid} {r : Request} (h : LiveInv s)
    (hkeeps : KeepsRegistered s r) (hstep : okStep cfg env s r = some s') : LiveInv s' := by
  obtain ⟨w, registered⟩ := s
  unfold okStep at hstep
  split at hstep <;> cases hstep
  next w' hrun =>
    cases r with
    | putService service accepted =>
      obtain rfl : (Request.onStore w (putServiceHandler cfg accepted service)).1 = w' :=
        congrArg Prod.fst (Option.some.inj hrun)
      exact h.of_neutral (putServiceHandler_neutral cfg accepted service w.store)
        fun _ _ => trivial
    | deleteService serviceId =>
      obtain rfl : (Request.onStore w (deleteServiceHandler serviceId)).1 = w' :=
        congrArg Prod.fst (Option.some.inj hrun)
      exact h.of_neutral (deleteServiceHandler_neutral serviceId w.store)
        fun id hid heq => hkeeps (heq ▸ hid)
    | createDomain serviceId hostname =>
      obtain rfl : (Request.onStore w (createServiceDomain cfg serviceId hostname)).1 = w' :=
        congrArg Prod.fst (Option.some.inj hrun)
      exact h.of_neutral
        (w.store.createServiceDomain_pending cfg serviceId hostname).neutral fun _ _ => trivial
    | verifyDomain =>
      exact h.verifyDomain (Option.some.inj hrun)
    | deleteDomain => exact h.deleteDomain (Option.some.inj hrun)
    | deploy => exact h.createDeployment hrun
    | stop => exact h.stopCommand hrun
    | tick =>
      cases hrun
      exact h.of_same
    | activate serviceId readable =>
      obtain rfl : w.control env (.activateOne (w.resolved serviceId readable)) = w' :=
        congrArg Prod.fst (Option.some.inj hrun)
      exact h.of_same

/-- The table a restart rebuilds from the database, with an empty snapshot. -/
def World.bootTable (w : World) : Except IngressError RouteTable :=
  routeTableFromSnapshot ({ w with snapshot := ∅ } : World).bootSnapshot

/-- The entries a restart makes. -/
theorem lookup_bootSnapshot (w : World) (id : Uuid) (spec : RouteSpec) :
    ({ w with snapshot := ∅ } : World).bootSnapshot.lookup id = some spec ↔
      ∃ svc, w.store.getService id = some svc ∧ (w.store.promotedDeployment id).isSome ∧
        w.store.listVerifiedHostnames id ≠ [] ∧
        spec = routeOf svc (w.store.listVerifiedHostnames id) := by
  refine (lookup_serviceEntries w.store _).trans (exists_congr fun svc => ?_)
  refine and_congr_right fun hsvc => ?_
  unfold World.bootEntry
  rw [w.store.services_id id svc hsvc]
  cases w.store.promotedDeployment id <;> cases w.store.listVerifiedHostnames id <;>
    simp [eq_comm]

/-- **What a restart resolves.** -/
theorem bootTable_resolvesTo (h : w.bootTable = .ok t) (host : String) (serviceId : Uuid) :
    ResolvesTo t host serviceId ↔
      (w.store.getService serviceId).isSome ∧ (w.store.promotedDeployment serviceId).isSome ∧
        asciiLowercase host ∈ w.store.listVerifiedHostnames serviceId := by
  have hentries : Entries w.store ({ w with snapshot := ∅ } : World).bootSnapshot := by
    intro id spec hspec
    obtain ⟨svc, hsvc, -, -, rfl⟩ := (lookup_bootSnapshot w id spec).mp hspec
    exact ⟨w.store.services_id id svc hsvc, rfl⟩
  rw [resolvesTo_of_entries hentries h]
  constructor
  · rintro ⟨hsome, hhost⟩
    obtain ⟨spec, hspec⟩ := Option.isSome_iff_exists.mp hsome
    obtain ⟨svc, hsvc, hpromoted, -, -⟩ := (lookup_bootSnapshot w _ spec).mp hspec
    exact ⟨Option.isSome_iff_exists.mpr ⟨svc, hsvc⟩, hpromoted, hhost⟩
  · rintro ⟨hservice, hpromoted, hhost⟩
    obtain ⟨svc, hsvc⟩ := Option.isSome_iff_exists.mp hservice
    refine ⟨Option.isSome_iff_exists.mpr ⟨_, (lookup_bootSnapshot w _ _).mpr
      ⟨svc, hsvc, hpromoted, List.ne_nil_of_mem hhost, rfl⟩⟩, hhost⟩

/-- **The live route table**, after every history of successful requests that deletes no
registered service: a host resolves to a service exactly when the service exists, is
promoted, has the host verified, and is registered; so the live table is the one a
restart rebuilds, cut down to the registered services. -/
theorem live_routes_registered {cfg : ApiConfig} {env : Env} {w0 w : World}
    {registered : List Uuid} {history : List Request} (hsnapshot : w0.snapshot = ∅)
    (hroutes : w0.routes = .empty)
    (hkeeps : Guarded (okStep cfg env) KeepsRegistered (w0, []) history)
    (hrun : exec (okStep cfg env) (w0, []) history = some (w, registered))
    (host : String) (serviceId : Uuid) : (ResolvesTo w.routes host serviceId ↔
      (w.store.getService serviceId).isSome ∧ (w.store.promotedDeployment serviceId).isSome ∧
        asciiLowercase host ∈ w.store.listVerifiedHostnames serviceId ∧
        serviceId ∈ registered) ∧
      ∀ t, w.bootTable = .ok t →
        (ResolvesTo w.routes host serviceId ↔
          ResolvesTo t host serviceId ∧ serviceId ∈ registered) := by
  have hstart : LiveInv (w0, []) :=
    .of_built ⟨hsnapshot, hroutes.symm ▸ rfl⟩ nofun (by simp) nofun nofun
  have hlive : LiveInv (w, registered) :=
    exec_invariant LiveInv (fun _ _ _ h hk hs => okStep_live h hk hs) hstart hkeeps hrun
  have hresolves : ResolvesTo w.routes host serviceId ↔
      (w.store.getService serviceId).isSome ∧ (w.store.promotedDeployment serviceId).isSome ∧
        asciiLowercase host ∈ w.store.listVerifiedHostnames serviceId ∧
        serviceId ∈ registered := by
    rw [resolvesTo_of_entries hlive.entries hlive.built]
    constructor
    · rintro ⟨hsome, hhost⟩
      have hreg : serviceId ∈ registered := (hlive.registered serviceId).mpr hsome
      exact ⟨(hlive.running _ hreg).1, (hlive.running _ hreg).2, hhost, hreg⟩
    · rintro ⟨-, -, hhost, hreg⟩
      exact ⟨(hlive.registered serviceId).mp hreg, hhost⟩
  refine ⟨hresolves, fun t ht => ?_⟩
  rw [hresolves, bootTable_resolvesTo ht]
  tauto

/-! ## §9. A hostname verified after the deploy. -/

/-- A new service with one hostname. -/
def blog : ServiceConfig :=
  { ServiceConfig.plain Uuid.nil "blog" with domains := ["blog.example.com"] }

/-- The service gets the id 3 and its domain row, still pending, the id 4. -/
def createBlog : Request := .putService blog true

/-- Without a verified hostname, a deploy reads the hostnames and ends. -/
def deployBlog (answers : Nat) : Request :=
  .deploy 3 .externalImage ([.ok, .acquired "sha256:a", .ok, .ok, .ok, .ok,
    .started "/run/blog.sock"] ++ List.replicate answers .ok) true

/-- The verifier finds the hostname. -/
def verifyBlog : Request := .verifyDomain 3 4 true

/-- What is known of the service and its host, and which service the live and the
rebuilt table resolve the host to. -/
structure BlogRoutes where
  registered : List Uuid
  stored : Bool
  promoted : Bool
  verified : List String
  live : Option Uuid
  boot : Option Uuid
  deriving DecidableEq

/-- Of a state. -/
def blogRoutes (s : World × List Uuid) : BlogRoutes where
  registered := s.2
  stored := (s.1.store.getService 3).isSome
  promoted := (s.1.store.promotedDeployment 3).isSome
  verified := s.1.store.listVerifiedHostnames 3
  live := (s.1.routes.resolve "blog.example.com").map (·.serviceId)
  boot := match s.1.bootTable with
    | .ok t => (t.resolve "blog.example.com").map (·.serviceId)
    | .error _ => none

/-- **The table is not what a restart rebuilds.**  Deployed first and verified then, the
service exists, is promoted and has the host verified; a restart routes it, the live
table does not. -/
theorem verified_after_deploy_unrouted : ∃ w registered,
      exec (okStep ⟨none⟩ calmEnv) (idleWorld, []) [createBlog, deployBlog 6, verifyBlog]
        = some (w, registered) ∧
      (w.store.getService 3).isSome ∧ (w.store.promotedDeployment 3).isSome ∧
      "blog.example.com" ∈ w.store.listVerifiedHostnames 3 ∧
      w.routes.resolve "blog.example.com" = none ∧
      ∃ t, w.bootTable = .ok t ∧ ResolvesTo t "blog.example.com" 3 := by
  obtain ⟨⟨w, registered⟩, hrun, hblog⟩ :
      ∃ s ∈ exec (okStep ⟨none⟩ calmEnv) (idleWorld, []) [createBlog, deployBlog 6, verifyBlog],
        blogRoutes s = ⟨[], true, true, ["blog.example.com"], none, some 3⟩ := by
    decide +kernel
  simp only [blogRoutes, BlogRoutes.mk.injEq] at hblog
  obtain ⟨-, hservice, hpromoted, hverified, hlive, hboot⟩ := hblog
  refine ⟨w, registered, hrun, hservice, hpromoted, by simp [hverified],
    Option.map_eq_none_iff.mp hlive, ?_⟩
  split at hboot
  next t ht =>
    obtain ⟨spec, hspec, hid⟩ := Option.map_eq_some_iff.mp hboot
    exact ⟨t, ht, spec, hspec, hid⟩
  next => cases hboot

/-- Verified first and deployed then, the live table resolves the host to the service. -/
theorem verified_before_deploy_routed : ∃ w registered,
      exec (okStep ⟨none⟩ calmEnv) (idleWorld, []) [createBlog, verifyBlog, deployBlog 7]
        = some (w, registered) ∧
      ResolvesTo w.routes "blog.example.com" 3 := by
  obtain ⟨⟨w, registered⟩, hrun, hblog⟩ :
      ∃ s ∈ exec (okStep ⟨none⟩ calmEnv) (idleWorld, []) [createBlog, verifyBlog, deployBlog 7],
        blogRoutes s = ⟨[3], true, true, ["blog.example.com"], some 3, some 3⟩ := by
    decide +kernel
  simp only [blogRoutes, BlogRoutes.mk.injEq] at hblog
  obtain ⟨hregistered, hservice, hpromoted, hverified, -, -⟩ := hblog
  have hkeeps : Guarded (okStep ⟨none⟩ calmEnv) KeepsRegistered (idleWorld, [])
      [createBlog, verifyBlog, deployBlog 7] :=
    ⟨trivial, fun _ _ => ⟨trivial, fun _ _ => ⟨trivial, fun _ _ => trivial⟩⟩⟩
  have hlower : asciiLowercase "blog.example.com" = "blog.example.com" := by decide +kernel
  exact ⟨w, registered, hrun,
    (live_routes_registered rfl rfl hkeeps hrun "blog.example.com" 3).1.mpr
      ⟨hservice, hpromoted, by simp [hverified, hlower], by simp [hregistered]⟩⟩

end Denia.Deploy
