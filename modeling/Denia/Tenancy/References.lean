/-
  Denia.Tenancy.References — WHAT A ROW NAMES IS THERE.

  No table declares a foreign key, so each reference is kept by the handlers alone.  Not all
  account for the rows they leave or name: `delete_service` leaves the domains, the promotion
  and the hosted repository of the service, and a pipeline promotes for a service that may be
  gone by then; `create_job` stores the registry of its source unread, and `delete_registry`
  looks at services only; `ensure_role` lets a super admin name a project that is not there.

  Main results: `references_hold_iff`, EXACTLY if each of these is done where it does no harm
  (`Harmless`); `deleted_service_keeps_domain`.
-/
import Denia.Tenancy.Identity
import Mathlib.Data.List.Dedup

namespace Denia.Tenancy

open Lib Verification

variable {cfg : ApiConfig} {db db' : Database} {request : Request}

/-! ## §1. The references. -/

/-- **No reference dangles.** -/
structure Database.NoDangling (db : Database) : Prop where
  domains : Refers db.serviceDomains db.services (fun _ d => some d.serviceId) fun _ _ => True
  promoted : Refers db.promotedDeployments db.services (fun serviceId _ => some serviceId)
    fun _ _ => True
  repositories : Refers db.hostedRepositories db.services (fun _ r => some r.serviceId)
    fun _ _ => True
  services : Refers db.services db.projects (fun _ s => some s.projectId) fun _ _ => True
  jobs : Refers db.jobs db.projects (fun _ job => some job.projectId) fun _ _ => True
  registries : Refers db.registries db.projects (fun _ row => some row.projectId) fun _ _ => True
  members : Refers db.projectMembers db.projects (fun key _ => some key.2) fun _ _ => True
  serviceSources : Refers db.services db.registries (fun _ s => s.source.registryId)
    fun s row => row.projectId = s.projectId
  jobSources : Refers db.jobs db.registries (fun _ job => job.source.registryId)
    fun job row => row.projectId = job.projectId

/-- What the references rest on: a manifest has its repository, keys and bodies agree, and
the ids of registries are given out. -/
structure Database.Sound (db : Database) : Prop extends db.NoDangling where
  manifests : Refers db.hostedManifests db.hostedRepositories (fun key _ => some key.1)
    fun _ _ => True
  serviceKeys : ∀ id s, db.services.lookup id = some s → s.id = id
  registryRows : ∀ id row, db.registries.lookup id = some row →
    row.configJson.projectId = row.projectId
  numbered : Numbered db.nextId db.registries

/-- **Requests that leave no reference without its row.** -/
def Harmless (db : Database) : Request → Prop
  | .addProjectMember principal projectId _ _ =>
      principal.isSuperAdmin = true → projectId ∈ db.projects
  | .putService principal service =>
      principal.isSuperAdmin = true → service.projectId ∈ db.projects
  | .createRegistry principal projectId _ =>
      principal.isSuperAdmin = true → projectId ∈ db.projects
  | .createJob principal job _ =>
      (principal.isSuperAdmin = true → job.projectId ∈ db.projects) ∧
        db.RegistryFits job.projectId job.source
  | .deleteService _ serviceId =>
      serviceId ∉ db.promotedDeployments ∧
        (∀ id d, db.serviceDomains.lookup id = some d → d.serviceId ≠ serviceId) ∧
        ∀ id r, db.hostedRepositories.lookup id = some r → r.serviceId ≠ serviceId
  | .promotion deploymentId =>
      ∀ serviceId, db.inFlight.lookup deploymentId = some serviceId → serviceId ∈ db.services
  | .deleteRegistry _ _ registryId =>
      ∀ id job, db.jobs.lookup id = some job → job.source.registryId ≠ some registryId
  | _ => True

theorem sound_migrated : Database.migrated.Sound := by
  constructor
  · constructor
    all_goals
      intro k r i hr
      cases hr.symm.trans (AList.lookup_empty k)
  · intro k r i hr
    cases hr.symm.trans (AList.lookup_empty k)
  · intro id s hs
    cases hs.symm.trans (AList.lookup_empty id)
  · intro id row hrow
    cases hrow.symm.trans (AList.lookup_empty id)
  · intro j _
    exact AList.lookup_empty j

/-! ## §2. Writes that point to a project. -/

theorem mem_of_lookup {κ ρ : Type*} [DecidableEq κ] {t : AList fun _ : κ => ρ} {k : κ} {r : ρ}
    (h : t.lookup k = some r) : k ∈ t :=
  AList.lookup_isSome.mp (Option.isSome_iff_exists.mpr ⟨r, h⟩)

theorem lookup_of_mem {κ ρ : Type*} [DecidableEq κ] {t : AList fun _ : κ => ρ} {k : κ}
    (h : k ∈ t) : ∃ r, t.lookup k = some r :=
  Option.isSome_iff_exists.mp (AList.lookup_isSome.mpr h)

variable {projectId nextId serviceId : Uuid}

/-- A member's project is there; a super admin's is by the guard. -/
theorem Database.Authorized.project {principal : Principal} {min : Role}
    (hauth : db.Authorized principal projectId min) (hdb : db.NoDangling)
    (hsuper : principal.isSuperAdmin = true → projectId ∈ db.projects) :
    ∃ row, db.projects.lookup projectId = some row ∧ True := by
  rcases hauth with hadmin | ⟨userId, role, -, hrole, -⟩
  · obtain ⟨row, hrow⟩ := lookup_of_mem (hsuper hadmin)
    exact ⟨row, hrow, trivial⟩
  · exact hdb.members (userId, projectId) role projectId hrole rfl

/-- A registry that fits by its body fits by its row. -/
theorem Database.RegistryFits.row {source : ServiceSource} (h : db.RegistryFits projectId source)
    (hdb : db.Sound) (registryId : Uuid) (hid : source.registryId = some registryId) :
    ∃ row, db.registries.lookup registryId = some row ∧ row.projectId = projectId := by
  obtain ⟨registry, hregistry, hproject⟩ := h registryId hid
  obtain ⟨row, hrow, rfl⟩ := Option.map_eq_some_iff.mp hregistry
  refine ⟨row, hrow, ?_⟩
  rwa [← hdb.registryRows registryId row hrow]

section
variable (hdb : db.Sound)
include hdb

/-- More projects do no harm. -/
theorem Database.Sound.grow_projects {projects : AList fun _ : Uuid => ProjectRow}
    (hgrow : ∀ id ∈ db.projects, id ∈ projects) (hnext : db.nextId ≤ nextId) :
    Database.Sound { db with projects := projects, nextId := nextId } :=
  { hdb with
    services := hdb.services.grow hgrow
    jobs := hdb.jobs.grow hgrow
    registries := hdb.registries.grow hgrow
    members := hdb.members.grow hgrow
    numbered := hdb.numbered.mono hnext }

theorem sound_withProject (req : CreateProjectRequest) : (db.withProject req).Sound := by
  unfold Database.withProject Database.putProject
  split
  all_goals exact hdb.grow_projects (fun _ h => AList.mem_insert _ |>.mpr (.inr h)) (Nat.le_succ _)

/-- `delete_project_q` takes along what is in the project, and is refused while a service
is. -/
theorem sound_deleteProject (h : db.deleteProject projectId = .ok db') : db'.Sound := by
  unfold Database.deleteProject at h
  split at h <;> cases h
  next hcount =>
    -- the services count is zero, so every service is of another project
    have hservice : ∀ id s, db.services.lookup id = some s → s.projectId ≠ projectId := by
      intro id s hs heq
      refine hcount (List.length_pos_of_mem (a := ⟨id, s⟩) ?_)
      exact List.mem_filter.mpr ⟨AList.mem_lookup_iff.mp hs, decide_eq_true heq⟩
    have hjob : ∀ id job, (retain db.jobs fun _ job => job.projectId ≠ projectId).lookup id
        = some job → job.projectId ≠ projectId :=
      fun id job hjob => of_decide_eq_true (lookup_retain.mp hjob).1
    exact
      { hdb with
        services := hdb.services.drop_erase fun id s hs heq =>
          hservice id s hs (Option.some.inj heq)
        jobs := (hdb.jobs.retain _).drop_erase fun id job hj heq =>
          hjob id job hj (Option.some.inj heq)
        registries := (hdb.registries.retain _).drop_erase fun id row hrow heq =>
          of_decide_eq_true (lookup_retain.mp hrow).1 (Option.some.inj heq)
        members := (hdb.members.restrict _).drop_erase fun key role hrole heq =>
          of_decide_eq_true (mem_lookup_restrict.mp hrole).1 (Option.some.inj heq)
        serviceSources := hdb.serviceSources.drop fun id s _ row hs _ hok =>
          decide_eq_true fun heq => hservice id s hs (hok.symm.trans heq)
        jobSources := (hdb.jobSources.retain _).drop fun id job _ row hj _ hok =>
          decide_eq_true fun heq => hjob id job hj (hok.symm.trans heq)
        registryRows := fun id row hrow => hdb.registryRows id row (lookup_retain.mp hrow).2
        numbered := hdb.numbered.sub fun _ _ hrow => (lookup_retain.mp hrow).2 }

theorem sound_setMembership {userId : Uuid} (role : Role)
    (hproject : ∃ row, db.projects.lookup projectId = some row ∧ True) :
    (db.setMembership userId projectId role).Sound :=
  { hdb with
    members := hdb.members.insert fun i hi => by
      obtain rfl : projectId = i := Option.some.inj hi
      exact hproject }

/-! ## §3. Writes that point to a service. -/

/-- New domain rows of a service that is there. -/
theorem Database.Sound.domainsAdded (hservice : serviceId ∈ db.services)
    (h : DomainsAdded serviceId db db') : db'.Sound := by
  obtain ⟨rows, nextId, rfl⟩ := h.frame
  refine { hdb with domains := ?_, numbered := ?_ }
  · intro id d i hd hi
    obtain rfl : d.serviceId = i := Option.some.inj hi
    rcases h.rows id d hd with hold | ⟨hid, -⟩
    · exact hdb.domains id d _ hold rfl
    · obtain ⟨s, hs⟩ := lookup_of_mem hservice
      exact ⟨s, by rw [hid]; exact hs, trivial⟩
  · exact hdb.numbered.mono h.nextId_le

theorem sound_putService {saved : ServiceConfig}
    (hproject : ∃ row, db.projects.lookup saved.projectId = some row ∧ True)
    (hregistry : db.RegistryFits saved.projectId saved.source) (hnext : db.nextId ≤ nextId)
    (h : Database.putService { db with nextId := nextId } saved = .ok db') : db'.Sound := by
  rw [putService_frame h]
  have hgrow : ∀ id ∈ db.services, id ∈ db.services.insert saved.id saved :=
    fun _ hid => (AList.mem_insert _).mpr (.inr hid)
  exact
    { hdb with
      domains := hdb.domains.grow hgrow
      promoted := hdb.promoted.grow hgrow
      repositories := hdb.repositories.grow hgrow
      services := hdb.services.insert fun i hi => by
        obtain rfl : saved.projectId = i := Option.some.inj hi
        exact hproject
      serviceSources := hdb.serviceSources.insert (hregistry.row hdb)
      serviceKeys := by
        intro id s hs
        rcases lookup_insert_cases hs with ⟨rfl, rfl⟩ | ⟨-, hold⟩
        · rfl
        · exact hdb.serviceKeys id s hold
      numbered := hdb.numbered.mono hnext }

theorem sound_deleteService (hpromoted : serviceId ∉ db.promotedDeployments)
    (hdomains : ∀ id d, db.serviceDomains.lookup id = some d → d.serviceId ≠ serviceId)
    (hrepositories : ∀ id r, db.hostedRepositories.lookup id = some r → r.serviceId ≠ serviceId) :
    (db.deleteService serviceId).Sound :=
  { hdb with
    domains := hdb.domains.drop_erase fun id d hd heq => hdomains id d hd (Option.some.inj heq)
    promoted := hdb.promoted.drop_erase fun id _ hrow heq => by
      obtain rfl : id = serviceId := Option.some.inj heq
      exact hpromoted (mem_of_lookup hrow)
    repositories := hdb.repositories.drop_erase fun id r hr heq =>
      hrepositories id r hr (Option.some.inj heq)
    services := hdb.services.erase serviceId
    serviceSources := hdb.serviceSources.erase serviceId
    serviceKeys := fun id s hs => hdb.serviceKeys id s (lookup_of_erase hs).2 }

/-- A service that the API finds by name has its row. -/
theorem Database.Sound.serviceNamed {name : String} {svc : ServiceConfig}
    (h : db.serviceNamed projectId name = some svc) :
    ∃ row, db.services.lookup svc.id = some row ∧ True := by
  have hmem : svc ∈ db.listServices := List.mem_of_find?_eq_some h
  obtain ⟨⟨id, s⟩, he, rfl⟩ := List.mem_map.mp hmem
  have hrow : db.services.lookup id = some s := AList.mem_lookup_iff.mpr he
  exact ⟨s, by rw [hdb.serviceKeys id s hrow]; exact hrow, trivial⟩

theorem sound_ensureRepository (name : String)
    (hservice : ∃ row, db.services.lookup serviceId = some row ∧ True) :
    (db.ensureRepository projectId serviceId name).1.Sound ∧
      (db.ensureRepository projectId serviceId name).2 ∈
        (db.ensureRepository projectId serviceId name).1.hostedRepositories := by
  unfold Database.ensureRepository
  split
  next row hfind =>
    exact ⟨hdb, mem_of_lookup (AList.mem_lookup_iff.mpr (List.mem_of_find?_eq_some hfind))⟩
  next =>
    refine ⟨?_, (AList.mem_insert _).mpr (.inl rfl)⟩
    exact
      { hdb with
        repositories := hdb.repositories.insert fun i hi => by
          obtain rfl : serviceId = i := Option.some.inj hi
          exact hservice
        manifests := hdb.manifests.grow fun _ hid => (AList.mem_insert _).mpr (.inr hid)
        numbered := hdb.numbered.mono (Nat.le_succ _) }

theorem sound_applyHosted {repositoryId : Uuid} (hrepository : repositoryId ∈ db.hostedRepositories)
    (act : HostedCall) : (db.applyHosted repositoryId act).Sound := by
  cases act with
  | other => exact hdb
  | putManifest =>
    exact
      { hdb with
        manifests := hdb.manifests.insert fun i hi => by
          obtain rfl : repositoryId = i := Option.some.inj hi
          obtain ⟨row, hrow⟩ := lookup_of_mem hrepository
          exact ⟨row, hrow, trivial⟩ }
  | deleteManifest => exact { hdb with manifests := hdb.manifests.erase _ }

/-! ## §4. Writes that point to a registry. -/

theorem sound_createRegistry {registry : Registry}
    (hproject : ∃ row, db.projects.lookup registry.projectId = some row ∧ True)
    (hfresh : db.nextId ≤ registry.id) (hnext : registry.id < nextId)
    (h : Database.createRegistry { db with nextId := nextId } registry = .ok db') : db'.Sound := by
  unfold Database.createRegistry at h
  split at h <;> cases h
  -- no row has the new id, so none is replaced
  have hnone : db.registries.lookup registry.id = none := hdb.numbered _ hfresh
  exact
    { hdb with
      registries := hdb.registries.insert fun i hi => by
        obtain rfl : registry.projectId = i := Option.some.inj hi
        exact hproject
      serviceSources := hdb.serviceSources.write fun _ _ y _ _ hy => by
        simp [hnone] at hy
      jobSources := hdb.jobSources.write fun _ _ y _ _ hy => by
        simp [hnone] at hy
      registryRows := by
        intro id row hrow
        rcases lookup_insert_cases hrow with ⟨rfl, rfl⟩ | ⟨-, hold⟩
        · rfl
        · exact hdb.registryRows id row hold
      numbered := by
        intro j hj
        have hlt : registry.id < j := Nat.lt_of_lt_of_le hnext hj
        show (db.registries.insert _ _).lookup j = none
        rw [AList.lookup_insert_ne (Nat.ne_of_gt hlt)]
        exact hdb.numbered j (Nat.le_of_lt (Nat.lt_of_le_of_lt hfresh hlt)) }

/-- `update_registry_q` keeps the project of the row. -/
theorem sound_updateRegistry {registry existing : Registry}
    (hexisting : db.registry registry.id = some existing)
    (hproject : existing.projectId = registry.projectId) (hnext : db.nextId ≤ nextId)
    (h : Database.updateRegistry { db with nextId := nextId } registry = .ok db') : db'.Sound := by
  obtain ⟨row, hrow, rfl⟩ := Option.map_eq_some_iff.mp hexisting
  have hrow' : ({ db with nextId := nextId } : Database).registries.lookup registry.id = some row :=
    hrow
  unfold Database.updateRegistry at h
  rw [hrow'] at h
  simp only at h
  split at h <;> cases h
  have hsame : row.projectId = registry.projectId := by
    rwa [← hdb.registryRows _ row hrow]
  have hold : ∀ y, db.registries.lookup registry.id = some y → y = row := by
    intro y hy
    rw [hrow] at hy
    exact (Option.some.inj hy).symm
  exact
    { hdb with
      registries := hdb.registries.insert fun i hi => hdb.registries _ row i hrow hi
      serviceSources := hdb.serviceSources.write fun _ _ y _ _ hy hok => by
        obtain rfl := hold y hy
        exact hok
      jobSources := hdb.jobSources.write fun _ _ y _ _ hy hok => by
        obtain rfl := hold y hy
        exact hok
      registryRows := by
        intro id r hr
        rcases lookup_insert_cases hr with ⟨rfl, rfl⟩ | ⟨-, hkept⟩
        · exact hsame.symm
        · exact hdb.registryRows id r hkept
      numbered := (hdb.numbered.replace hrow _).mono hnext }

theorem sound_deleteRegistry {registryId : Uuid}
    (hjobs : ∀ id job, db.jobs.lookup id = some job → job.source.registryId ≠ some registryId)
    (h : db.deleteRegistry registryId = .ok db') : db'.Sound := by
  unfold Database.deleteRegistry at h
  split at h
  · cases h
  next registry hregistry =>
    split at h <;> cases h
    next hunused =>
      obtain ⟨row, hrow, rfl⟩ := Option.map_eq_some_iff.mp hregistry
      -- a service that names the registry is of its project, and the query would find it
      have hservices : ∀ id s, db.services.lookup id = some s →
          s.source.registryId ≠ some registryId := by
        intro id s hs hsource
        obtain ⟨row', hrow', hproject⟩ := hdb.serviceSources id s registryId hs hsource
        rw [hrow] at hrow'
        obtain rfl := Option.some.inj hrow'
        refine hunused (List.any_eq_true.mpr ⟨⟨id, s⟩, AList.mem_lookup_iff.mp hs, ?_⟩)
        refine decide_eq_true ⟨?_, hsource⟩
        rw [hdb.registryRows _ row hrow]
        exact hproject.symm
      exact
        { hdb with
          registries := hdb.registries.erase _
          serviceSources := hdb.serviceSources.drop_erase hservices
          jobSources := hdb.jobSources.drop_erase hjobs
          registryRows := fun id r hr => hdb.registryRows id r (lookup_of_erase hr).2
          numbered := hdb.numbered.sub fun _ _ hr => (lookup_of_erase hr).2 }

theorem sound_putJob {job : Job}
    (hproject : ∃ row, db.projects.lookup job.projectId = some row ∧ True)
    (hregistry : db.RegistryFits job.projectId job.source) : (db.putJob job).Sound :=
  { hdb with
    jobs := hdb.jobs.insert fun i hi => by
      obtain rfl : job.projectId = i := Option.some.inj hi
      exact hproject
    jobSources := hdb.jobSources.insert (hregistry.row hdb)
    numbered := hdb.numbered.mono (Nat.le_succ _) }

/-! ## §5. Every request. -/

/-- **One harmless request keeps the references.** -/
theorem sound_step (hharmless : Harmless db request) (h : db.step cfg request = some db') :
    db'.Sound := by
  cases handle_effect h with
  | createProject => exact sound_withProject hdb _
  | deleteProject hdelete => exact sound_deleteProject hdb hdelete
  | addProjectMember hauth => exact sound_setMembership hdb _ (hauth.project hdb.1 hharmless)
  | removeProjectMember => exact { hdb with members := hdb.members.erase _ }
  | createUser hcreate =>
    unfold Database.createUser at hcreate
    split at hcreate <;> cases hcreate
    exact { hdb with numbered := hdb.numbered.mono (Nat.le_succ _) }
  | deleteUser hdelete =>
    rw [deleteUser_frame hdelete]
    exact { hdb with members := hdb.members.restrict _ }
  | putService hauth hregistry hproject hsource hnext hput hdomains =>
    have hsaved := hauth.project hdb.1 hharmless
    rw [← hproject] at hsaved
    rw [← hproject, ← hsource] at hregistry
    refine (sound_putService hdb hsaved hregistry hnext hput).domainsAdded ?_ hdomains
    rw [putService_frame hput]
    exact (AList.mem_insert _).mpr (.inl rfl)
  | deleteService => exact sound_deleteService hdb hharmless.1 hharmless.2.1 hharmless.2.2
  | createDeployment => exact { hdb with numbered := hdb.numbered.mono (Nat.le_succ _) }
  | promotion hpipeline =>
    exact
      { hdb with
        promoted := hdb.promoted.insert fun i hi => by
          obtain rfl := Option.some.inj hi
          obtain ⟨service, hservice⟩ := lookup_of_mem (hharmless _ hpipeline)
          exact ⟨service, hservice, trivial⟩ }
  | stopService => exact { hdb with promoted := hdb.promoted.erase _ }
  | createServiceDomain hservice hdomains =>
    exact hdb.domainsAdded (mem_of_lookup hservice) hdomains
  | verifiedBefore => exact hdb
  | verifyServiceDomain =>
    unfold Database.updateServiceDomainStatus
    split
    · exact hdb
    next d hd =>
      exact { hdb with domains := hdb.domains.insert fun i hi => hdb.domains _ d i hd hi }
  | deleteServiceDomain => exact { hdb with domains := hdb.domains.erase _ }
  | createRegistry hauth hproject hfresh hnext hcreate =>
    have hsaved := hauth.project hdb.1 hharmless
    rw [← hproject] at hsaved
    exact sound_createRegistry hdb hsaved hfresh hnext hcreate
  | updateRegistry hexisting hsame hid hproject hnext hupdate =>
    rw [← hid] at hexisting
    exact sound_updateRegistry hdb hexisting (hsame.trans hproject.symm) hnext hupdate
  | deleteRegistry hdelete => exact sound_deleteRegistry hdb hharmless hdelete
  | createJob hauth => exact sound_putJob hdb (hauth.project hdb.1 hharmless.1) hharmless.2
  | deleteJob => exact { hdb with jobs := hdb.jobs.erase _, jobSources := hdb.jobSources.erase _ }
  | hosted hservice name =>
    obtain ⟨hensured, hmem⟩ := sound_ensureRepository hdb name (hdb.serviceNamed hservice)
    exact sound_applyHosted hensured hmem _

/-- **Every other request leaves a reference that dangles.** -/
theorem dangles_step (hharm : ¬ Harmless db request) (h : db.step cfg request = some db') :
    ¬ db'.NoDangling := by
  intro hdb'
  apply hharm
  -- the harm of a request is the reference that dangles after it
  cases handle_effect h with
  | @addProjectMember principal projectId userId role hauth =>
    intro _
    obtain ⟨row, hrow, -⟩ := hdb'.members (userId, projectId) role projectId
      (AList.lookup_insert _) rfl
    exact mem_of_lookup hrow
  | @putService principal request saved nextId db1 db' hauth hregistry hproject hsource hnext
      hput hdomains =>
      intro _
      obtain ⟨rows, next, rfl⟩ := hdomains.frame
      rw [putService_frame hput] at hdb'
      obtain ⟨row, hrow, -⟩ := hdb'.services saved.id saved saved.projectId
        (AList.lookup_insert _) rfl
      rw [hproject] at hrow
      exact mem_of_lookup hrow
  | @deleteService principal serviceId =>
    have hgone : ∀ s, (db.deleteService serviceId).services.lookup serviceId ≠ some s := by
      intro s hs
      exact (lookup_of_erase hs).1 rfl
    refine ⟨?_, ?_, ?_⟩
    · intro hpromoted
      obtain ⟨deployment, hrow⟩ := lookup_of_mem hpromoted
      obtain ⟨s, hs, -⟩ := hdb'.promoted serviceId deployment serviceId hrow rfl
      exact hgone s hs
    · rintro id d hd rfl
      obtain ⟨s, hs, -⟩ := hdb'.domains id d _ hd rfl
      exact hgone s hs
    · rintro id r hr rfl
      obtain ⟨s, hs, -⟩ := hdb'.repositories id r _ hr rfl
      exact hgone s hs
  | @promotion deploymentId serviceId hpipeline =>
    intro s hs
    cases hpipeline.symm.trans hs
    obtain ⟨service, hservice, -⟩ := hdb'.promoted serviceId deploymentId serviceId
      (AList.lookup_insert _) rfl
    exact mem_of_lookup hservice
  | @createRegistry principal projectId input registry nextId db' hauth hproject hfresh hnext
      hcreate =>
      intro _
      unfold Database.createRegistry at hcreate
      split at hcreate <;> cases hcreate
      obtain ⟨row, hrow, -⟩ := hdb'.registries registry.id _ registry.projectId
        (AList.lookup_insert _) rfl
      rw [hproject] at hrow
      exact mem_of_lookup hrow
  | @deleteRegistry principal projectId registryId db' hdelete =>
    intro id job hjob hsource
    unfold Database.deleteRegistry at hdelete
    repeat' split at hdelete
    all_goals cases hdelete
    obtain ⟨row, hrow, -⟩ := hdb'.jobSources id job registryId hjob hsource
    exact (lookup_of_erase hrow).1 rfl
  | @createJob principal job schedule hauth =>
    have hjob : (db.putJob job).jobs.lookup db.nextId = some job := AList.lookup_insert _
    refine ⟨fun _ => ?_, fun registryId hsource => ?_⟩
    · obtain ⟨row, hrow, -⟩ := hdb'.jobs db.nextId job job.projectId hjob rfl
      exact mem_of_lookup hrow
    · obtain ⟨row, hrow, hproject⟩ := hdb'.jobSources db.nextId job registryId hjob hsource
      have hrow' : db.registries.lookup registryId = some row := hrow
      refine ⟨row.configJson, ?_, ?_⟩
      · unfold Database.registry
        rw [hrow']
        rfl
      · rwa [hdb.registryRows registryId row hrow']
  | _ => trivial

end

/-! ## §6. Hostnames and images of services that are there. -/

/-- A hostname that cannot be claimed is one of a service that exists. -/
def Database.HostnamesOwned (db : Database) : Prop :=
  ∀ serviceId hostname, db.putServiceDomain serviceId hostname = none →
    ∃ id d service, db.serviceDomains.lookup id = some d ∧ d.hostname = hostname ∧
      db.getService d.serviceId = some service

/-- A manifest the garbage collector starts from is of a service that exists. -/
def Database.ManifestsOwned (db : Database) : Prop :=
  ∀ digest ∈ db.allManifestDigests, ∃ repositoryId manifest repository service,
    db.hostedManifests.lookup (repositoryId, digest) = some manifest ∧
      db.hostedRepositories.lookup repositoryId = some repository ∧
      db.getService repository.serviceId = some service

theorem Database.NoDangling.hostnamesOwned (hdb : db.NoDangling) : db.HostnamesOwned := by
  intro serviceId hostname htaken
  unfold Database.putServiceDomain at htaken
  split at htaken
  next hany =>
    obtain ⟨⟨id, d⟩, he, hname⟩ := List.any_eq_true.mp hany
    have hd : db.serviceDomains.lookup id = some d := AList.mem_lookup_iff.mpr he
    obtain ⟨service, hservice, -⟩ := hdb.domains id d d.serviceId hd rfl
    exact ⟨id, d, service, hd, of_decide_eq_true hname, hservice⟩
  next => cases htaken

theorem Database.Sound.manifestsOwned (hdb : db.Sound) : db.ManifestsOwned := by
  intro digest hdigest
  unfold Database.allManifestDigests at hdigest
  obtain ⟨⟨repositoryId, _⟩, hkey, rfl⟩ := List.mem_map.mp (List.mem_dedup.mp hdigest)
  obtain ⟨manifest, hmanifest⟩ := lookup_of_mem (t := db.hostedManifests) hkey
  obtain ⟨repository, hrepository, -⟩ := hdb.manifests _ manifest repositoryId hmanifest rfl
  obtain ⟨service, hservice, -⟩ := hdb.repositories repositoryId repository _ hrepository rfl
  exact ⟨repositoryId, manifest, repository, service, hmanifest, hrepository, hservice⟩

/-- **References hold exactly under harmless requests.**  For every history of requests on
the migrated database: in each database it goes through no reference dangles, hostnames
in use are of services that exist and so are the images the garbage collector keeps, if
and only if every request of the history is harmless where it is made. -/
theorem references_hold_iff {requests : List Request}
    (h : exec (Database.step cfg) .migrated requests = some db) :
    (∀ before after u, requests = before ++ after →
        exec (Database.step cfg) .migrated before = some u →
        u.NoDangling ∧ u.HostnamesOwned ∧ u.ManifestsOwned) ↔
      Guarded (Database.step cfg) Harmless .migrated requests := by
  refine guarded_iff_exec (fun _ _ _ hs hg hstep => sound_step hs hg hstep)
    (fun _ _ _ hs hg hstep hP => dangles_step hs hg hstep hP.1) (fun u hu => ?_)
    sound_migrated h
  exact ⟨hu.1, hu.hostnamesOwned, hu.manifestsOwned⟩

/-! ## §7. A deleted service. -/

/-- A service of the default project that pulls an image, with one hostname. -/
def webService : ServiceConfig :=
  { ServiceConfig.plain Uuid.nil 1 "web" with
    domains := ["web.example.com"]
    source := .externalImage "registry.example.com/web:1" none none none }

/-- A hostname. -/
def webHostname : Hostname := ⟨"web.example.com", by decide +kernel⟩

/-- **A deleted service is still named.**  Its domain row stays, and the hostname cannot be
claimed by another service; and a pipeline that was on its way promotes after the delete. -/
theorem deleted_service_keeps_domain : (∃ db, exec (Database.step plainConfig) .migrated
        [.putService .superAdmin webService, .deleteService .superAdmin 2] = some db ∧
      ¬ db.NoDangling ∧ db.getService 2 = none ∧
      ∀ serviceId, db.putServiceDomain serviceId webHostname = none) ∧
    ∃ db, exec (Database.step plainConfig) .migrated
        [.putService .superAdmin (.plain Uuid.nil 1 "web"), .createDeployment .superAdmin 2,
         .deleteService .superAdmin 2, .promotion 3] = some db ∧
      ¬ db.NoDangling ∧ db.getService 2 = none := by
  constructor
  · refine exists_run (fun db => (∃ d ∈ db.serviceDomains.lookup 3, d.serviceId = 2) ∧
      db.services.lookup 2 = none ∧
      (db.serviceDomains.entries.any fun e => e.2.hostname = webHostname) = true)
      (by decide +kernel) fun db _ hend => ?_
    obtain ⟨⟨d, hd, hservice⟩, hnone, htaken⟩ := hend
    refine ⟨fun hnd => ?_, hnone, fun serviceId => ?_⟩
    · obtain ⟨s, hs, -⟩ := hnd.domains 3 d 2 hd (congrArg some hservice)
      simp [hnone] at hs
    · unfold Database.putServiceDomain
      rw [if_pos htaken]
  · refine exists_run (fun db => db.promotedDeployments.lookup 2 = some 3 ∧
      db.services.lookup 2 = none) (by decide +kernel) fun db _ hend => ?_
    obtain ⟨hpromoted, hnone⟩ := hend
    refine ⟨fun hnd => ?_, hnone⟩
    obtain ⟨s, hs, -⟩ := hnd.promoted 2 3 2 hpromoted rfl
    simp [hnone] at hs

/-- The service is deployed; stopped and without its domain row it may go. -/
def retireWeb : List Request :=
  [.putService .superAdmin webService, .createDeployment .superAdmin 2, .promotion 4,
   .stopService .superAdmin 2, .deleteServiceDomain .superAdmin 2 3, .deleteService .superAdmin 2]

/-- A test for requests that name no registry. -/
def testHarmless (db : Database) : Request → Bool
  | .putService _ service => service.projectId ∈ db.projects
  | .createDeployment .. | .stopService .. | .deleteServiceDomain .. => true
  | .promotion deploymentId => (db.inFlight.lookup deploymentId).all (· ∈ db.services)
  | .deleteService _ serviceId =>
      serviceId ∉ db.promotedDeployments &&
        (db.serviceDomains.entries.all fun e => e.2.serviceId ≠ serviceId) &&
        (db.hostedRepositories.entries.all fun e => e.2.serviceId ≠ serviceId)
  | _ => false

theorem harmless_of_test (h : testHarmless db request = true) : Harmless db request := by
  cases request with
  | putService => exact fun _ => of_decide_eq_true h
  | createDeployment | stopService | deleteServiceDomain => trivial
  | promotion =>
    intro serviceId hpipeline
    rw [testHarmless, hpipeline] at h
    exact of_decide_eq_true h
  | deleteService =>
    obtain ⟨h, hrepositories⟩ := Bool.and_eq_true_iff.mp h
    obtain ⟨hpromoted, hdomains⟩ := Bool.and_eq_true_iff.mp h
    refine ⟨of_decide_eq_true hpromoted, fun id d hd => ?_, fun id r hr => ?_⟩
    · exact of_decide_eq_true (List.all_eq_true.mp hdomains _ (AList.mem_lookup_iff.mp hd))
    · exact of_decide_eq_true (List.all_eq_true.mp hrepositories _ (AList.mem_lookup_iff.mp hr))
  | _ => cases h

theorem references_hold_retired :
    ∃ db, exec (Database.step plainConfig) .migrated retireWeb = some db ∧
      db.NoDangling ∧ db.HostnamesOwned ∧ db.ManifestsOwned := by
  refine exists_run (fun _ => True) (by decide +kernel) fun db hdb _ => ?_
  refine (references_hold_iff hdb).mpr ?_ retireWeb [] db (List.append_nil _).symm hdb
  exact guarded_of_checked (fun _ _ h => harmless_of_test h) (by decide +kernel)

end Denia.Tenancy
