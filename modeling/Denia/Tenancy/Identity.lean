/-
  Denia.Tenancy.Identity — a PROJECT IS WHAT ITS ID SAYS.

  A project stands in its row twice, under the key and in the JSON body, and the body
  has an id of its own.  `get_project` and every reference go by the key, `list_projects`
  and the registry's `resolve_repo` by the body.  `put_project_q` resolves a conflict by
  NAME: then the key stays and the body, with the new id, is replaced.

  Main results: `identity_stable_iff`, EXACTLY if no `create_project` takes a name in use;
  `reused_name_loses_project`.
-/
import Denia.Tenancy.Api

namespace Denia.Tenancy

open Lib

variable {cfg : ApiConfig} {db db' : Database} {request : Request}

/-! ## §1. What the requests do to the projects. -/

theorem mem_listProjects {p : Project} :
    p ∈ db.listProjects ↔ ∃ id row, db.projects.lookup id = some row ∧ row.configJson = p := by
  unfold Database.listProjects
  rw [List.mem_map]
  constructor
  · rintro ⟨⟨id, row⟩, hmem, rfl⟩
    exact ⟨id, row, AList.mem_lookup_iff.mpr hmem, rfl⟩
  · rintro ⟨id, row, hrow, rfl⟩
    exact ⟨⟨id, row⟩, AList.mem_lookup_iff.mp hrow, rfl⟩

/-- The requests other than the two on projects. -/
def Request.keepsProjects : Request → Prop
  | .createProject .. | .deleteProject .. => False
  | _ => True

/-- The requests that write no membership. -/
def Request.keepsMembers : Request → Bool
  | .addProjectMember .. | .removeProjectMember .. | .deleteUser .. | .deleteProject .. => false
  | _ => true

/-- The projects and the memberships are as before, and ids are given out once. -/
structure Database.SameTenancy (db db' : Database) : Prop where
  projects : db'.projects = db.projects
  members : db'.projectMembers = db.projectMembers
  nextId_le : db.nextId ≤ db'.nextId

theorem sameTenancy_hosted (db : Database) (projectId serviceId : Uuid) (name : String)
    (act : HostedCall) :
    db.SameTenancy ((db.ensureRepository projectId serviceId name).1.applyHosted
      (db.ensureRepository projectId serviceId name).2 act) := by
  unfold Database.ensureRepository
  split
  · cases act <;> exact ⟨rfl, rfl, Nat.le_refl _⟩
  · cases act <;> exact ⟨rfl, rfl, Nat.le_succ _⟩

theorem putService_frame {service : ServiceConfig} (h : db.putService service = .ok db') :
    db' = { db with services := db.services.insert service.id service } := by
  unfold Database.putService at h
  split at h
  all_goals
    split at h <;> cases h
    rfl

/-- **The tenancy of every other request stays as it is.** -/
theorem Effect.sameTenancy (h : Effect db request db') (hk : request.keepsProjects)
    (hm : request.keepsMembers = true) : db.SameTenancy db' := by
  cases h with
  | createProject | deleteProject => exact hk.elim
  | addProjectMember | removeProjectMember | deleteUser => cases hm
  | deleteService | promotion | stopService | deleteServiceDomain | deleteJob | verifiedBefore =>
    exact ⟨rfl, rfl, Nat.le_refl _⟩
  | createUser hcreate =>
    unfold Database.createUser at hcreate
    split at hcreate <;> cases hcreate
    exact ⟨rfl, rfl, Nat.le_succ _⟩
  | putService hauth hregistry hproject hsource hnext hput hdomains =>
    obtain ⟨rows, next, rfl⟩ := hdomains.frame
    have hle := hdomains.nextId_le
    rw [putService_frame hput] at hle ⊢
    exact ⟨rfl, rfl, Nat.le_trans hnext hle⟩
  | createDeployment => exact ⟨rfl, rfl, Nat.le_succ _⟩
  | createServiceDomain hservice hdomains =>
    obtain ⟨rows, next, rfl⟩ := hdomains.frame
    exact ⟨rfl, rfl, hdomains.nextId_le⟩
  | verifyServiceDomain =>
    unfold Database.updateServiceDomainStatus
    split <;> exact ⟨rfl, rfl, Nat.le_refl _⟩
  | createRegistry hauth hproject hfresh hnext hcreate =>
    unfold Database.createRegistry at hcreate
    split at hcreate <;> cases hcreate
    exact ⟨rfl, rfl, Nat.le_of_lt (Nat.lt_of_le_of_lt hfresh hnext)⟩
  | updateRegistry hexisting hsame hid hproject hnext hupdate =>
    unfold Database.updateRegistry at hupdate
    repeat' split at hupdate
    all_goals cases hupdate
    exact ⟨rfl, rfl, hnext⟩
  | deleteRegistry hdelete =>
    unfold Database.deleteRegistry at hdelete
    repeat' split at hdelete
    all_goals cases hdelete
    exact ⟨rfl, rfl, Nat.le_refl _⟩
  | createJob => exact ⟨rfl, rfl, Nat.le_succ _⟩
  | hosted hservice name => exact sameTenancy_hosted db _ _ name _

theorem deleteUser_frame {userId : Uuid} (h : db.deleteUser userId = .ok db') : db' = { db with
      projectMembers := restrict db.projectMembers fun key => key.1 ≠ userId
      users := db.users.erase userId } := by
  unfold Database.deleteUser at h
  repeat' split at h
  all_goals cases h
  rfl

theorem deleteProject_frame {projectId : Uuid} (h : db.deleteProject projectId = .ok db') :
    db' = { db with
      jobs := retain db.jobs fun _ job => job.projectId ≠ projectId
      registries := retain db.registries fun _ row => row.projectId ≠ projectId
      projectMembers := restrict db.projectMembers fun key => key.2 ≠ projectId
      projects := db.projects.erase projectId } := by
  unfold Database.deleteProject at h
  split at h <;> cases h
  rfl

/-- Only the requests on projects write the projects. -/
theorem Effect.projects_eq (h : Effect db request db') (hk : request.keepsProjects) :
    db'.projects = db.projects ∧ db.nextId ≤ db'.nextId := by
  by_cases hm : request.keepsMembers = true
  · exact ⟨(h.sameTenancy hk hm).projects, (h.sameTenancy hk hm).nextId_le⟩
  · cases h with
    | addProjectMember | removeProjectMember => exact ⟨rfl, Nat.le_refl _⟩
    | deleteUser hdelete =>
      rw [deleteUser_frame hdelete]
      exact ⟨rfl, Nat.le_refl _⟩
    | deleteProject => exact hk.elim
    | _ => exact absurd rfl hm

/-- Only the requests on members, and a project's deletion, write memberships. -/
theorem Effect.members_eq (h : Effect db request db') (hm : request.keepsMembers = true) :
    db'.projectMembers = db.projectMembers := by
  by_cases hk : request.keepsProjects
  · exact (h.sameTenancy hk hm).members
  · cases h with
    | createProject =>
      unfold Database.withProject Database.putProject
      split <;> rfl
    | deleteProject => cases hm
    | _ => exact absurd trivial hk

/-! ## §2. Names in use, and the identity they endanger. -/

/-- **A created project takes a name no project has.** -/
def NameFree (db : Database) : Request → Prop
  | .createProject _ req => ∀ id row, db.projects.lookup id = some row → row.name ≠ req.name
  | _ => True

/-- The projects that are listed are found. -/
def Database.ListedFound (db : Database) : Prop :=
  ∀ p ∈ db.listProjects, db.getProject p.id = some p

/-- The body's id is the key, and the keys are ids given out. -/
structure Database.Identified (db : Database) : Prop where
  body : ∀ id row, db.projects.lookup id = some row → row.configJson.id = id
  numbered : Numbered db.nextId db.projects

theorem Database.Identified.listedFound (h : db.Identified) : db.ListedFound := by
  intro p hp
  obtain ⟨id, row, hrow, rfl⟩ := mem_listProjects.mp hp
  unfold Database.getProject
  rw [h.body id row hrow, hrow]
  rfl

theorem identified_migrated : Database.migrated.Identified := by
  constructor
  · intro id row hrow
    rcases lookup_insert_cases hrow with ⟨rfl, rfl⟩ | ⟨-, hold⟩
    · rfl
    · simp [AList.lookup_empty] at hold
  · exact Numbered.insert (n := 1) (fun j _ => AList.lookup_empty j) _

variable {req : CreateProjectRequest}

/-- A project under a free name is a new row. -/
theorem withProject_of_free (h : ∀ id row, db.projects.lookup id = some row → row.name ≠ req.name) :
    (db.withProject req).projects =
      db.projects.insert db.nextId ⟨req.name, req.project db.nextId⟩ := by
  have hnone : (db.projects.entries.find? fun e => e.2.name = (req.project db.nextId).name)
      = none := by
    rw [List.find?_eq_none]
    intro e he
    rw [decide_eq_true_eq]
    exact h e.1 e.2 (AList.mem_lookup_iff.mpr he)
  unfold Database.withProject Database.putProject
  rw [hnone]
  rfl

/-- A project under a name in use replaces the body of some row. -/
theorem withProject_of_used {id : Uuid} {row : ProjectRow}
    (hrow : db.projects.lookup id = some row) (hname : row.name = req.name) :
    ∃ key old, db.projects.lookup key = some old ∧ (db.withProject req).projects =
      db.projects.insert key { old with configJson := req.project db.nextId } := by
  cases hfind : db.projects.entries.find? fun e => e.2.name = (req.project db.nextId).name with
  | none =>
    have hmem : (⟨id, row⟩ : Sigma fun _ : Uuid => ProjectRow) ∈ db.projects.entries :=
      AList.mem_lookup_iff.mp hrow
    have hne := List.find?_eq_none.mp hfind _ hmem
    exact absurd (decide_eq_true_eq.mpr hname) hne
  | some e =>
    refine ⟨e.1, e.2, AList.mem_lookup_iff.mpr (List.mem_of_find?_eq_some hfind), ?_⟩
    unfold Database.withProject Database.putProject
    rw [hfind]

/-- One request with a free name keeps the identity. -/
theorem identified_step (hdb : db.Identified) (hfree : NameFree db request)
    (h : db.step cfg request = some db') : db'.Identified := by
  have heffect := handle_effect h
  by_cases hk : request.keepsProjects
  · obtain ⟨hprojects, hnext⟩ := heffect.projects_eq hk
    constructor
    · rw [hprojects]
      exact hdb.body
    · rw [hprojects]
      exact hdb.numbered.mono hnext
  · cases heffect with
    | createProject =>
      have hprojects := withProject_of_free hfree
      constructor
      · intro id row hrow
        rw [hprojects] at hrow
        rcases lookup_insert_cases hrow with ⟨rfl, rfl⟩ | ⟨-, hold⟩
        · rfl
        · exact hdb.body id row hold
      · rw [hprojects]
        exact hdb.numbered.insert _
    | deleteProject hdelete =>
      rw [deleteProject_frame hdelete]
      constructor
      · intro id row hrow
        exact hdb.body id row (lookup_of_erase hrow).2
      · exact hdb.numbered.sub fun _ _ hrow => (lookup_of_erase hrow).2
    | _ => exact absurd trivial hk

/-- A name taken again: the new id is listed and no key has it. -/
theorem not_listedFound_of_used (hdb : db.Identified) (hused : ¬ NameFree db request)
    (h : db.step cfg request = some db') : ¬ db'.ListedFound := by
  cases handle_effect h with
  | @createProject principal req hsuper hname =>
    unfold NameFree at hused
    push Not at hused
    obtain ⟨id, row, hrow, hsame⟩ := hused
    obtain ⟨key, old, hold, hprojects⟩ := withProject_of_used hrow hsame
    intro hfound
    have hlisted : req.project db.nextId ∈ (db.withProject req).listProjects := by
      refine mem_listProjects.mpr ⟨key, { old with configJson := req.project db.nextId }, ?_, rfl⟩
      rw [hprojects]
      exact AList.lookup_insert _
    have hget := hfound _ hlisted
    unfold Database.getProject at hget
    have hne : (req.project db.nextId).id ≠ key :=
      Nat.ne_of_gt (hdb.numbered.lt hold)
    have hnone : db.projects.lookup (req.project db.nextId).id = none :=
      hdb.numbered _ (Nat.le_refl _)
    rw [hprojects, AList.lookup_insert_ne hne, hnone] at hget
    cases hget
  | _ => exact absurd trivial hused

/-! ## §3. What names a project. -/

/-- A member or a service of the project. -/
def Database.Names (db : Database) (projectId : Uuid) : Prop :=
  (∃ userId role, db.projectMembers.lookup (userId, projectId) = some role) ∨
    ∃ serviceId service, db.services.lookup serviceId = some service ∧
      service.projectId = projectId

/-- The requests that are not the project's deletion. -/
def Request.deletes (projectId : Uuid) : Request → Bool
  | .deleteProject _ id => id == projectId
  | _ => false

/-- A project stays until it is deleted, under names in use or not. -/
theorem project_stays {projectId : Uuid} (hdel : request.deletes projectId = false)
    (hdb : projectId ∈ db.projects) (h : db.step cfg request = some db') :
    projectId ∈ db'.projects := by
  have heffect := handle_effect h
  by_cases hk : request.keepsProjects
  · rwa [(heffect.projects_eq hk).1]
  · cases heffect with
    | @createProject principal req hsuper hname =>
      show projectId ∈ (db.withProject req).projects
      unfold Database.withProject Database.putProject
      split
      all_goals exact AList.mem_insert _ |>.mpr (.inr hdb)
    | @deleteProject principal id db' hdelete =>
      have hne : projectId ≠ id := by
        intro heq
        exact absurd (beq_iff_eq.mpr heq.symm) (Bool.eq_false_iff.mp hdel)
      rw [deleteProject_frame hdelete]
      exact (AList.mem_erase).mpr ⟨hne, hdb⟩
    | _ => exact absurd trivial hk

/-- **Project identity is stable exactly under free names.**  For every history of
requests: the projects listed are found under their ids in every database it goes
through, and whatever named an existing project names a listed one until that project is
deleted, if and only if each `create_project` takes a name that is free. -/
theorem identity_stable_iff {requests : List Request}
    (h : exec (Database.step cfg) .migrated requests = some db) :
    ((∀ before after u, requests = before ++ after →
        exec (Database.step cfg) .migrated before = some u → u.ListedFound) ∧
      ∀ before between after u v projectId, requests = before ++ between ++ after →
        exec (Database.step cfg) .migrated before = some u →
        exec (Database.step cfg) u between = some v →
        u.Names projectId → u.getProject projectId ≠ none →
        (∀ r ∈ between, r.deletes projectId = false) →
        ∃ p ∈ v.listProjects, p.id = projectId) ↔
      Guarded (Database.step cfg) NameFree .migrated requests := by
  have hiff := guarded_iff_exec (P := Database.ListedFound)
    (fun _ _ _ hs hg hstep => identified_step hs hg hstep)
    (fun _ _ _ hs hg hstep => not_listedFound_of_used hs hg hstep)
    (fun _ hs => hs.listedFound) identified_migrated h
  refine ⟨fun hall => hiff.mp hall.1, fun hg => ⟨hiff.mpr hg, ?_⟩⟩
  intro before between after u v projectId hcut hu hv _ hexists hkept
  subst hcut
  have hmem : projectId ∈ u.projects := by
    rw [← AList.lookup_isSome]
    unfold Database.getProject at hexists
    rw [ne_eq, Option.map_eq_none_iff] at hexists
    exact Option.isSome_iff_ne_none.mpr hexists
  -- the project stays, and is listed under its id
  have hstays : projectId ∈ v.projects :=
    exec_invariant_mem (P := fun r : Request => r.deletes projectId = false)
      (fun w => projectId ∈ w.projects)
      (fun _ _ _ hw hr hstep => project_stays hr hw hstep) hmem hkept hv
  obtain ⟨row, hrow⟩ := Option.isSome_iff_exists.mp (AList.lookup_isSome.mpr hstays)
  have hident : v.Identified := by
    rw [List.append_assoc] at hg
    obtain ⟨hgu, hgrest⟩ := guarded_append hg hu
    exact exec_invariant _ (fun _ _ _ hs hg hstep => identified_step hs hg hstep)
      (exec_invariant _ (fun _ _ _ hs hg hstep => identified_step hs hg hstep)
        identified_migrated hgu hu)
      (guarded_append hgrest hv).1 hv
  exact ⟨row.configJson, mem_listProjects.mpr ⟨projectId, row, hrow, rfl⟩,
    hident.body projectId row hrow⟩

/-! ## §4. A name taken again. -/

/-- A control plane without the optional settings. -/
def plainConfig : ApiConfig where
  controlDomain := none
  acmeEmail := false
  ageRecipient := false
  checkImageHost := fun _ => .ok ()
  checkEndpoint := fun _ => .ok ()
  scheduleParses := fun _ => true

/-- A project of that name. -/
def createNamed (name : String) : Request :=
  .createProject .superAdmin
    { name, description := none, sharedEnv := [], defaultResourceLimits := none, now := 0 }

/-- A user (2), a project `team` (3) with that user as its admin, and another project. -/
def teamRequests (again : String) : List Request :=
  [.createUser .superAdmin "ann" "twelve chars" false, createNamed "team",
   .addProjectMember .superAdmin 3 2 .admin, createNamed again]

/-- **A name in use breaks the identity**: the second `team` is listed under an id that is
not found, and the member of the first belongs to a project that is not listed. -/
theorem reused_name_loses_project :
    ∃ db, exec (Database.step plainConfig) .migrated (teamRequests "team") = some db ∧
      (∃ p ∈ db.listProjects, db.getProject p.id = none) ∧
      db.projectMembers.lookup (2, 3) = some .admin ∧ (∀ p ∈ db.listProjects, p.id ≠ 3) := by
  decide +kernel

/-- Two projects with names of their own. -/
theorem identity_stable_two_names :
    ∃ db, exec (Database.step plainConfig) .migrated (teamRequests "crew") = some db ∧
      db.listProjects.length = 3 ∧ ∀ before after u, teamRequests "crew" = before ++ after →
        exec (Database.step plainConfig) .migrated before = some u → u.ListedFound := by
  refine exists_run (fun db => db.listProjects.length = 3) (by decide +kernel)
    fun db hdb hlength => ⟨hlength, ?_⟩
  have hfound : checked (Database.step plainConfig) (fun db r => match r with
      | .createProject _ req => db.projects.entries.all fun e => e.2.name ≠ req.name
      | _ => true) .migrated (teamRequests "crew") = true := by
    decide +kernel
  have hfree : Guarded (Database.step plainConfig) NameFree .migrated (teamRequests "crew") := by
    refine guarded_of_checked (fun db r hr => ?_) hfound
    unfold NameFree
    split
    next req =>
      intro id row hrow
      exact of_decide_eq_true (List.all_eq_true.mp hr _ (AList.mem_lookup_iff.mp hrow))
    next => trivial
  exact ((identity_stable_iff hdb).mpr hfree).1

end Denia.Tenancy
