/-
  Denia.Tenancy.LastAdmin — the LAST ADMIN of a project, over every interleaving of
  requests that write memberships (`src/api/members.rs`, `delete_user_handler`).

  Each request is a sequence of repository calls.  Three calls can take the last admin away:
  `set_membership`, which replaces a role without looking at it, `delete_user`, which drops
  every membership of the user, and `remove_membership`, whose lockout guard was decided one
  call EARLIER on the members listed then.

  Main results: `request_alone`, a request alone is its handler; `last_admin_kept`, under
  `Undisturbed`; `last_admin_lost`, three ways; `outsiders_change_no_role`.
-/
import Denia.Lib.Interleave
import Denia.Tenancy.Identity

namespace Denia.Tenancy

open Lib

/-! ## §1. Requests, one repository call at a time. -/

/-- The requests that write memberships. -/
inductive MemberRequest where
  | add (principal : Principal) (projectId userId : Uuid) (role : Role)
  | remove (principal : Principal) (projectId userId : Uuid)
  | deleteUser (principal : Principal) (userId : Uuid)
  deriving DecidableEq

/-- A request at its next repository call. -/
inductive MemberPc where
  | addRole (principal : Principal) (projectId userId : Uuid) (role : Role)
  | addUser (projectId userId : Uuid) (role : Role)
  | setMembership (projectId userId : Uuid) (role : Role)
  | removeRole (principal : Principal) (projectId userId : Uuid)
  | listMembers (projectId userId : Uuid)
  | removeMembership (projectId userId : Uuid)
  | deleteUser (principal : Principal) (userId : Uuid)
  | done (result : Except ApiError PUnit)

/-- The handler of the request, in one go. -/
def MemberRequest.handle : MemberRequest → Api PUnit
  | .add principal projectId userId role => addProjectMember principal projectId userId role
  | .remove principal projectId userId => removeProjectMember principal projectId userId
  | .deleteUser principal userId => Tenancy.deleteUser principal userId

/-- One call, and where the request goes on if it succeeds. -/
def MemberPc.after (call : Api PUnit) (next : MemberPc) (db : Database) : Database × MemberPc :=
  match runProg call db with
  | (.ok _, db') => (db', next)
  | (.error e, db') => (db', .done (.error e))

/-- The next call of a request. -/
def MemberPc.advance (db : Database) : MemberPc → Option (Database × MemberPc)
  | .addRole principal projectId userId role =>
      some (after (ensureRole principal projectId .admin) (.addUser projectId userId role) db)
  | .addUser projectId userId role =>
      some (after (ensure (db.getUser userId ≠ none) (.notFound "user not found"))
        (.setMembership projectId userId role) db)
  | .setMembership projectId userId role =>
      some (db.setMembership userId projectId role, .done (.ok ⟨⟩))
  | .removeRole principal projectId userId =>
      some (after (ensureRole principal projectId .admin) (.listMembers projectId userId) db)
  | .listMembers projectId userId =>
      some (after (ensure (lockout (db.listMembers projectId) userId = false)
        (.conflict "cannot remove the last admin of a project"))
        (.removeMembership projectId userId) db)
  | .removeMembership projectId userId =>
      some (db.removeMembership userId projectId, .done (.ok ⟨⟩))
  | .deleteUser principal userId =>
      some (after (Tenancy.deleteUser principal userId) (.done (.ok ⟨⟩)) db)
  | .done _ => none

/-- What else changes the database: the call of `delete_project`, and the requests that
write no membership. -/
inductive OtherCall where
  | deleteProject (projectId : Uuid)
  | request (request : Request)
  deriving DecidableEq

/-- The requests on memberships, and everything around them. -/
def memberProgram (cfg : ApiConfig) : Program Database MemberPc MemberRequest Unit OtherCall where
  start
    | .add principal projectId userId role => .addRole principal projectId userId role
    | .remove principal projectId userId => .removeRole principal projectId userId
    | .deleteUser principal userId => .deleteUser principal userId
  advance db pc _ := pc.advance db
  outer db
    | .deleteProject projectId => (db.deleteProject projectId).toOption
    | .request request => if request.keepsMembers then db.step cfg request else none

/-- The requests under way. -/
abbrev Members := System Database MemberPc

/-- The events. -/
abbrev MemberEvent := Event MemberRequest Unit OtherCall

variable {cfg : ApiConfig} {db db' : Database} {projectId userId : Uuid}

/-! ## §2. A request alone. -/

/-- The calls of a request from where it is, with no other request between them. -/
def MemberPc.finish : Nat → Database → MemberPc → Option (Except ApiError PUnit × Database)
  | 0, _, _ => none
  | fuel + 1, db, pc =>
      match pc, pc.advance db with
      | .done result, _ => some (result, db)
      | _, some (db', pc') => finish fuel db' pc'
      | _, none => none

/-- After a call, an error ends the request and a success goes on. -/
theorem finish_after (call : Api PUnit) {rest : Api PUnit} {next : MemberPc} {fuel : Nat}
    (hnext : ∀ db', MemberPc.finish fuel db' next = some (runProg rest db'))
    (hfuel : 0 < fuel) (db : Database) :
    MemberPc.finish fuel (MemberPc.after call next db).1 (MemberPc.after call next db).2 =
      some (runProg (call >>= fun _ => rest) db) := by
  rw [runProg_bind]
  unfold MemberPc.after
  obtain ⟨fuel, rfl⟩ := Nat.exists_eq_succ_of_ne_zero (Nat.ne_of_gt hfuel)
  generalize runProg call db = r
  obtain ⟨_ | _, db'⟩ := r
  · rfl
  · exact hnext db'

/-- **A request that runs alone does what its handler does.** -/
theorem request_alone (request : MemberRequest) (db : Database) :
    MemberPc.finish 4 db ((memberProgram cfg).start request) =
      some (runProg request.handle db) := by
  cases request with
  | add principal projectId userId role =>
    let write : Api PUnit := modify (·.setMembership userId projectId role)
    have hwrite : ∀ db', MemberPc.finish 2 db' (.setMembership projectId userId role) =
        some (runProg write db') := fun _ => rfl
    have huser : ∀ db', MemberPc.finish 3 db' (.addUser projectId userId role) =
        some (runProg (do
          let db ← get
          ensure (db.getUser userId ≠ none) (.notFound "user not found")
          write) db') := fun db' =>
      finish_after (ensure (db'.getUser userId ≠ none) (.notFound "user not found"))
        hwrite (by decide) db'
    exact finish_after (ensureRole principal projectId .admin) huser (by decide) db
  | remove principal projectId userId =>
    let write : Api PUnit := modify (·.removeMembership userId projectId)
    have hwrite : ∀ db', MemberPc.finish 2 db' (.removeMembership projectId userId) =
        some (runProg write db') := fun _ => rfl
    have hlist : ∀ db', MemberPc.finish 3 db' (.listMembers projectId userId) =
        some (runProg (do
          let db ← get
          ensure (lockout (db.listMembers projectId) userId = false)
            (.conflict "cannot remove the last admin of a project")
          write) db') := fun db' =>
      finish_after (ensure (lockout (db'.listMembers projectId) userId = false)
        (.conflict "cannot remove the last admin of a project")) hwrite (by decide) db'
    exact finish_after (ensureRole principal projectId .admin) hlist (by decide) db
  | deleteUser principal userId =>
    have hdone : ∀ db', MemberPc.finish 3 db' (.done (.ok ⟨⟩)) =
        some (runProg (pure ⟨⟩ : Api PUnit) db') := fun _ => rfl
    rw [show (MemberRequest.deleteUser principal userId).handle =
      (Tenancy.deleteUser principal userId >>= fun _ => pure ⟨⟩) from (bind_pure _).symm]
    exact finish_after (Tenancy.deleteUser principal userId) hdone (by decide) db

/-! ## §3. Admins of a project. -/

/-- A member with role `Admin` or higher. -/
def Database.IsAdmin (db : Database) (projectId userId : Uuid) : Prop :=
  ∃ role, db.roleFor userId projectId = some role ∧ .admin ≤ role

/-- The project has an admin. -/
def Database.HasAdmin (db : Database) (projectId : Uuid) : Prop :=
  ∃ userId, db.IsAdmin projectId userId

/-- An admin besides the user. -/
def Database.OtherAdmin (db : Database) (projectId userId : Uuid) : Prop :=
  ∃ other, other ≠ userId ∧ db.IsAdmin projectId other

theorem Database.IsAdmin.of_lookup {other : Uuid} (h : db.IsAdmin projectId other)
    (hsame : db'.projectMembers.lookup (other, projectId) =
      db.projectMembers.lookup (other, projectId)) : db'.IsAdmin projectId other := by
  obtain ⟨role, hrole, hadmin⟩ := h
  exact ⟨role, hsame.trans hrole, hadmin⟩

/-- A call that leaves the other members of a project as they are. -/
def SameBut (projectId userId : Uuid) (db db' : Database) : Prop :=
  ∀ other, other ≠ userId → db'.projectMembers.lookup (other, projectId) =
    db.projectMembers.lookup (other, projectId)

theorem Database.OtherAdmin.keep (h : db.OtherAdmin projectId userId)
    (hsame : SameBut projectId userId db db') : db'.OtherAdmin projectId userId := by
  obtain ⟨other, hne, hadmin⟩ := h
  exact ⟨other, hne, hadmin.of_lookup (hsame other hne)⟩

/-- The users of a listing are distinct. -/
theorem nodup_listMembers (db : Database) (projectId : Uuid) :
    ((db.listMembers projectId).map Prod.fst).Nodup := by
  unfold Database.listMembers
  rw [List.map_map]
  have hkeys : ((db.projectMembers.entries.filter fun e => e.1.2 = projectId).map
      Sigma.fst).Nodup := db.projectMembers.nodupKeys.sublist List.filter_sublist
  refine List.Nodup.map_on ?_ (List.Nodup.of_map _ hkeys)
  -- two rows of one project with one user have one key, so they are one row
  intro e he e' he' huser
  have hproject := of_decide_eq_true (List.mem_filter.mp he).2
  have hproject' := of_decide_eq_true (List.mem_filter.mp he').2
  have hkey : e.1 = e'.1 := Prod.ext huser (hproject.trans hproject'.symm)
  exact List.inj_on_of_nodup_map hkeys he he' hkey

variable {role : Role}

theorem mem_listMembers :
    (userId, role) ∈ db.listMembers projectId ↔ db.roleFor userId projectId = some role := by
  have hlookup : db.roleFor userId projectId = some role ↔
      ⟨(userId, projectId), role⟩ ∈ db.projectMembers.entries := AList.mem_lookup_iff
  rw [hlookup]
  unfold Database.listMembers
  rw [List.mem_map]
  constructor
  · rintro ⟨⟨⟨user, project⟩, r⟩, he, ⟨⟩⟩
    obtain ⟨hmem, hproject⟩ := List.mem_filter.mp he
    exact of_decide_eq_true hproject ▸ hmem
  · intro hmem
    exact ⟨_, List.mem_filter.mpr ⟨hmem, decide_eq_true rfl⟩, rfl⟩

/-- **What the lockout guard establishes** on the members it reads: the removal leaves an
admin if there is one. -/
theorem otherAdmin_of_lockout (h : lockout (db.listMembers projectId) userId = false)
    (hadmin : db.IsAdmin projectId userId) : db.OtherAdmin projectId userId := by
  by_contra hother
  obtain ⟨role, hrole, hle⟩ := hadmin
  have htarget : ((db.listMembers projectId).any fun m => m.1 = userId ∧ .admin ≤ m.2) = true :=
    List.any_eq_true.mpr ⟨_, mem_listMembers.mpr hrole, decide_eq_true ⟨rfl, hle⟩⟩
  -- the listed admins are all the one user, and a user is listed once
  have hall : ∀ u ∈ ((db.listMembers projectId).filter fun m => .admin ≤ m.2).map Prod.fst,
      u = userId := by
    intro u hu
    obtain ⟨⟨u', r⟩, hm, rfl⟩ := List.mem_map.mp hu
    obtain ⟨hmem, hr⟩ := List.mem_filter.mp hm
    by_contra hne
    exact hother ⟨u', hne, r, mem_listMembers.mp hmem, of_decide_eq_true hr⟩
  have hnodup : (((db.listMembers projectId).filter fun m => .admin ≤ m.2).map
      Prod.fst).Nodup :=
    (nodup_listMembers db projectId).sublist (List.Sublist.map _ List.filter_sublist)
  rw [List.eq_replicate_of_mem hall, List.length_map, List.nodup_replicate] at hnodup
  unfold lockout at h
  rw [htarget, decide_eq_true hnodup] at h
  cases h

/-! ## §4. What disturbs a removal. -/

/-- Another request is about to remove a member of the project. -/
def RemovalPending (σ : Members) (i : Nat) (projectId userId : Uuid) : Prop :=
  ∃ j, j ≠ i ∧ σ.procs[j]? = some (.removeMembership projectId userId)

/-- **Calls that do not disturb the admins of a project**: an only admin is not lowered
and not deleted; no admin goes while a removal of the project is past its guard; and none
comes by a user who is about to be removed, unless there is another one. -/
def Undisturbed (projectId : Uuid) (σ : Members) : MemberEvent → Prop
  | .move i _ =>
      match σ.procs[i]? with
      | some (.setMembership project userId role) =>
          project = projectId →
            (¬ .admin ≤ role → σ.shared.IsAdmin projectId userId →
              σ.shared.OtherAdmin projectId userId ∧
                ∀ target, ¬ RemovalPending σ i projectId target) ∧
            (.admin ≤ role → RemovalPending σ i projectId userId →
              σ.shared.OtherAdmin projectId userId)
      | some (.deleteUser _ userId) =>
          σ.shared.IsAdmin projectId userId →
            σ.shared.OtherAdmin projectId userId ∧ ∀ target, ¬ RemovalPending σ i projectId target
      | some (.removeMembership project userId) =>
          project = projectId → σ.shared.IsAdmin projectId userId →
            ∀ target, ¬ RemovalPending σ i projectId target
      | _ => True
  | _ => True

/-- A removal past its guard leaves an admin if it removes one. -/
def Guards (projectId : Uuid) (db : Database) : MemberPc → Prop
  | .removeMembership project userId =>
      project = projectId → db.IsAdmin projectId userId → db.OtherAdmin projectId userId
  | _ => True

/-- The call may take the admin role of the project from the user. -/
def MemberPc.Lowers (projectId userId : Uuid) : MemberPc → Prop
  | .setMembership project user role => project = projectId ∧ user = userId ∧ ¬ .admin ≤ role
  | .removeMembership project user => project = projectId ∧ user = userId
  | .deleteUser _ user => user = userId
  | _ => False

/-- What a call does to the admins of a project: it makes one, it takes the role from one
user, or it leaves the project's members and passes the lockout guard at most. -/
inductive MemberMove (projectId : Uuid) (db : Database) : MemberPc → Database → MemberPc → Prop
  | raise {userId role result} (hadmin : .admin ≤ role) :
      MemberMove projectId db (.setMembership projectId userId role)
        (db.setMembership userId projectId role) (.done result)
  | lower {pc userId db' result} (hpc : pc.Lowers projectId userId)
      (hsame : SameBut projectId userId db db') (hgone : ¬ db'.IsAdmin projectId userId) :
      MemberMove projectId db pc db' (.done result)
  | same {pc db' pc'} (hsame : ∀ userId, db'.projectMembers.lookup (userId, projectId) =
        db.projectMembers.lookup (userId, projectId)) (hnext : Guards projectId db' pc') :
      MemberMove projectId db pc db' pc'

theorem ensureRole_state (principal : Principal) (project : Uuid) (min : Role) (db : Database) :
    (runProg (ensureRole principal project min) db).2 = db := by
  unfold ensureRole ensureRoleOr
  split
  · rfl
  · cases principal.userId with
    | none => rfl
    | some user =>
      show (runProg (found (db.roleFor user project) _ >>= _) db).2 = db
      cases db.roleFor user project with
      | none => rfl
      | some role =>
        show (runProg (ensure (min ≤ role) _) db).2 = db
        rw [runProg_ensure]

variable {pc : MemberPc}

/-- After a call that only reads, the members are as before. -/
theorem move_of_reads {next pc' : MemberPc} {call : Api PUnit}
    (h : MemberPc.after call next db = (db', pc')) (hstate : (runProg call db).2 = db)
    (hnext : ∀ r, runProg call db = (.ok r, db) → Guards projectId db next) :
    MemberMove projectId db pc db' pc' := by
  unfold MemberPc.after at h
  rcases hr : runProg call db with ⟨_ | a, db1⟩ <;> rw [hr] at h hstate <;> cases hstate <;> cases h
  · exact .same (fun _ => rfl) trivial
  · exact .same (fun _ => rfl) (hnext a hr)

/-- **Every call is one of the three.** -/
theorem memberMove_of_advance (projectId : Uuid) {pc' : MemberPc}
    (h : pc.advance db = some (db', pc')) : MemberMove projectId db pc db' pc' := by
  cases pc with
  | addRole | removeRole =>
    exact move_of_reads (Option.some.inj h) (ensureRole_state _ _ _ _) fun _ _ => trivial
  | addUser =>
    exact move_of_reads (Option.some.inj h) (by rw [runProg_ensure]) fun _ _ => trivial
  | listMembers =>
    refine move_of_reads (Option.some.inj h) (by rw [runProg_ensure]) ?_
    rintro r hr rfl hadmin
    rw [runProg_ensure] at hr
    split at hr <;> cases hr
    next hlockout => exact otherAdmin_of_lockout hlockout hadmin
  | setMembership project userId role =>
    obtain ⟨rfl, rfl⟩ := Prod.mk.inj (Option.some.inj h)
    by_cases hproject : project = projectId
    · subst hproject
      by_cases hrole : .admin ≤ role
      · exact .raise hrole
      · refine .lower ⟨rfl, rfl, hrole⟩ (fun other hne => ?_) ?_
        · exact AList.lookup_insert_ne fun heq => hne (Prod.mk.inj heq).1
        · rintro ⟨role', hrole', hadmin⟩
          cases (AList.lookup_insert _).symm.trans hrole'
          exact hrole hadmin
    · exact .same (fun _ => AList.lookup_insert_ne fun heq =>
        hproject (Prod.mk.inj heq).2.symm) trivial
  | removeMembership project =>
    obtain ⟨rfl, rfl⟩ := Prod.mk.inj (Option.some.inj h)
    by_cases hproject : project = projectId
    · subst hproject
      refine .lower ⟨rfl, rfl⟩ (fun other hne => ?_) ?_
      · exact AList.lookup_erase_ne fun heq => hne (Prod.mk.inj heq).1
      · rintro ⟨role, hrole, -⟩
        exact (lookup_of_erase hrole).1 rfl
    · exact .same (fun _ => AList.lookup_erase_ne fun heq =>
        hproject (Prod.mk.inj heq).2.symm) trivial
  | deleteUser principal userId =>
    have hafter := Option.some.inj h
    unfold MemberPc.after at hafter
    rcases hrun : runProg (Tenancy.deleteUser principal userId) db with ⟨e | r, db1⟩ <;>
      rw [hrun] at hafter <;> cases hafter
    -- a refused request has written nothing
    · have hstate : db' = db := by
        unfold Tenancy.deleteUser at hrun
        rw [runProg_bind, runProg_ensure] at hrun
        split at hrun <;> rename_i hok <;> obtain ⟨-, rfl⟩ := Prod.mk.inj hok
        · exact state_of_call_error hrun
        · exact (Prod.mk.inj hrun).2.symm
      subst hstate
      exact .same (fun _ => rfl) trivial
    · have hret : Returns (Tenancy.deleteUser principal userId) db r _ := hrun
      simp only [Tenancy.deleteUser, returns_ensure_bind, returns_call] at hret
      rw [deleteUser_frame hret.2]
      refine .lower rfl (fun other hne => ?_) ?_
      · exact (lookup_restrict ..).trans (if_pos (decide_eq_true hne))
      · rintro ⟨role, hrole, -⟩
        exact of_decide_eq_true (mem_lookup_restrict.mp hrole).1 rfl
  | done => cases h

/-! ## §5. The admins along a run. -/

theorem Guards.of_same (h : Guards projectId db pc)
    (hsame : ∀ user, db'.projectMembers.lookup (user, projectId) =
      db.projectMembers.lookup (user, projectId)) : Guards projectId db' pc := by
  cases pc with
  | removeMembership project target =>
    intro hproject hadmin
    exact (h hproject (hadmin.of_lookup (hsame target).symm)).keep fun other _ => hsame other
  | _ => trivial

/-- A pending removal does not mind that a user who is no admin is none afterwards. -/
theorem Guards.of_lower (h : Guards projectId db pc) (hsame : SameBut projectId userId db db')
    (hgone : ¬ db'.IsAdmin projectId userId) (hnot : ¬ db.IsAdmin projectId userId) :
    Guards projectId db' pc := by
  cases pc with
  | removeMembership project target =>
    intro hproject hadmin
    have htarget : target ≠ userId := fun heq => hgone (heq ▸ hadmin)
    obtain ⟨other, hne, hother⟩ := h hproject (hadmin.of_lookup (hsame target htarget).symm)
    have hotherne : other ≠ userId := fun heq => hnot (heq ▸ hother)
    exact ⟨other, hne, hother.of_lookup (hsame other hotherne)⟩
  | _ => trivial

theorem sameBut_setMembership (db : Database) (projectId userId : Uuid) (role : Role) :
    SameBut projectId userId db (db.setMembership userId projectId role) :=
  fun _ hne => AList.lookup_insert_ne fun heq => hne (Prod.mk.inj heq).1

theorem isAdmin_setMembership (h : .admin ≤ role) :
    (db.setMembership userId projectId role).IsAdmin projectId userId :=
  ⟨role, AList.lookup_insert _, h⟩

/-- A new admin who is about to be removed must not be the only one. -/
theorem Guards.of_raise (h : Guards projectId db pc) (hadmin : .admin ≤ role)
    (hpending : pc = .removeMembership projectId userId → db.OtherAdmin projectId userId) :
    Guards projectId (db.setMembership userId projectId role) pc := by
  cases pc with
  | removeMembership project target =>
    rintro rfl htarget
    by_cases heq : target = userId
    · subst heq
      exact (hpending rfl).keep (sameBut_setMembership _ _ _ _)
    · have hold : db.IsAdmin project target :=
        htarget.of_lookup (sameBut_setMembership _ _ _ _ target heq).symm
      obtain ⟨other, hne, hother⟩ := h rfl hold
      by_cases hou : other = userId
      · exact ⟨userId, fun heq' => heq heq'.symm, isAdmin_setMembership hadmin⟩
      · exact ⟨other, hne, hother.of_lookup (sameBut_setMembership _ _ _ _ other hou)⟩
  | _ => trivial

variable {σ : Members}

/-- A step that can lower an admin: another one is left, and no removal is pending. -/
theorem Undisturbed.lowers {i : Nat} (hguard : Undisturbed projectId σ (.move i ()))
    (hpc : σ.procs[i]? = some pc) (hlockout : Guards projectId σ.shared pc)
    (hlowers : pc.Lowers projectId userId) (hadmin : σ.shared.IsAdmin projectId userId) :
    σ.shared.OtherAdmin projectId userId ∧ ∀ target, ¬ RemovalPending σ i projectId target := by
  simp only [Undisturbed, hpc] at hguard
  cases pc with
  | setMembership =>
    obtain ⟨rfl, rfl, hrole⟩ := hlowers
    exact (hguard rfl).1 hrole hadmin
  | removeMembership =>
    obtain ⟨rfl, rfl⟩ := hlowers
    exact ⟨hlockout rfl hadmin, hguard rfl hadmin⟩
  | deleteUser principal user =>
    obtain rfl : user = userId := hlowers
    exact hguard hadmin
  | _ => exact hlowers.elim

/-- The other calls leave a project's members, or delete the project. -/
theorem outer_members (projectId : Uuid) {call : OtherCall}
    (h : (memberProgram cfg).outer db call = some db') :
    (∀ user, db'.projectMembers.lookup (user, projectId) =
      db.projectMembers.lookup (user, projectId)) ∨
    call = .deleteProject projectId ∧ ∀ user, ¬ db'.IsAdmin projectId user := by
  cases call with
  | deleteProject project =>
    have hok : db.deleteProject project = .ok db' := by
      have h : (db.deleteProject project).toOption = some db' := h
      generalize db.deleteProject project = r at h
      rcases r with _ | db1 <;> cases h
      rfl
    rw [deleteProject_frame hok]
    by_cases hproject : project = projectId
    · subst hproject
      refine .inr ⟨rfl, fun user => ?_⟩
      rintro ⟨role, hrole, -⟩
      exact of_decide_eq_true (mem_lookup_restrict.mp hrole).1 rfl
    · refine .inl fun user => ?_
      have hne : (user, projectId).2 ≠ project := fun heq => hproject heq.symm
      exact (lookup_restrict ..).trans (if_pos (decide_eq_true hne))
  | request request =>
    have h : (if request.keepsMembers then db.step cfg request else none) = some db' := h
    split at h
    next hkeeps => exact .inl fun user => by rw [(handle_effect h).members_eq hkeeps]
    next => cases h

/-- **Every removal past its guard stays guarded** under undisturbed calls. -/
theorem members_keep (projectId : Uuid) :
    (memberProgram cfg).Keeps (Undisturbed projectId) (fun _ => True) (Guards projectId)
      (fun _ _ => True) where
  symm := fun _ _ _ => trivial
  start_each := by
    intro db request _
    cases request <;> trivial
  start_apart := fun _ _ => trivial
  outer := by
    intro σ call db' _ _ houter
    refine ⟨trivial, fun pc hpc => ?_⟩
    rcases outer_members projectId houter with hsame | ⟨-, hnone⟩
    · exact hpc.of_same hsame
    · cases pc with
      | removeMembership project target => exact fun _ hadmin => absurd hadmin (hnone target)
      | _ => trivial
  move := by
    intro σ i pc answer db' pc' hσ hguard hpc hadvance
    have hguard : Undisturbed projectId σ (.move i ()) := hguard
    refine ⟨trivial, ?_⟩
    cases memberMove_of_advance projectId hadvance with
    | @raise userId role result hadmin =>
      refine ⟨trivial, fun j q hj hq => ⟨(hσ.each j q hq).of_raise hadmin ?_, trivial⟩⟩
      rintro rfl
      simp only [Undisturbed, hpc] at hguard
      exact (hguard trivial).2 hadmin ⟨j, hj, hq⟩
    | @lower _ userId _ result hlowers hsame hgone =>
      refine ⟨trivial, fun j q hj hq => ⟨?_, trivial⟩⟩
      by_cases hadmin : σ.shared.IsAdmin projectId userId
      · -- no removal of the project is pending, so nothing is owed
        cases q with
        | removeMembership project target =>
          rintro rfl
          exact absurd ⟨j, hj, hq⟩ ((hguard.lowers hpc (hσ.each i pc hpc) hlowers hadmin).2 target)
        | _ => trivial
      · exact (hσ.each j q hq).of_lower hsame hgone hadmin
    | same hsame hnext =>
      exact ⟨hnext, fun j q hj hq => ⟨(hσ.each j q hq).of_same hsame, trivial⟩⟩

/-- One undisturbed call keeps an admin, unless it deletes the project. -/
theorem hasAdmin_step {σ' : Members} {event : MemberEvent}
    (hσ : σ.Holds (fun _ => True) (Guards projectId) (fun _ _ => True))
    (hguard : Undisturbed projectId σ event) (hkept : event ≠ .outer (.deleteProject projectId))
    (hadmin : σ.shared.HasAdmin projectId) (h : (memberProgram cfg).step σ event = some σ') :
    σ'.shared.HasAdmin projectId := by
  cases event with
  | spawn =>
    cases h
    exact hadmin
  | outer =>
    obtain ⟨db', houter, rfl⟩ := Program.step_outer h
    obtain ⟨userId, huser⟩ := hadmin
    rcases outer_members projectId houter with hsame | ⟨rfl, -⟩
    · exact ⟨userId, huser.of_lookup (hsame userId)⟩
    · exact absurd rfl hkept
  | move i =>
    have hguard : Undisturbed projectId σ (.move i ()) := hguard
    obtain ⟨pc, db', pc', hpc, hadvance, rfl⟩ := Program.step_move h
    obtain ⟨userId, huser⟩ := hadmin
    cases memberMove_of_advance projectId hadvance with
    | raise hrole => exact ⟨_, isAdmin_setMembership hrole⟩
    | @lower _ user _ result hlowers hsame hgone =>
      -- if this admin is lowered, the guard has another one
      by_cases heq : userId = user
      · subst heq
        obtain ⟨⟨other, hne, hother⟩, -⟩ :=
          hguard.lowers hpc (hσ.each i pc hpc) hlowers huser
        exact ⟨other, hother.of_lookup (hsame other hne)⟩
      · exact ⟨userId, huser.of_lookup (hsame userId heq)⟩
    | same hsame => exact ⟨userId, huser.of_lookup (hsame userId)⟩

/-- **A project keeps an admin.**  Along every interleaving that does not disturb its
admins: once the project has an admin it has one until it is deleted. -/
theorem last_admin_kept {before after : List MemberEvent} {σ τ : Members}
    (hguard : Guarded (memberProgram cfg).step (Undisturbed projectId) ⟨db, []⟩ (before ++ after))
    (hσ : exec (memberProgram cfg).step ⟨db, []⟩ before = some σ)
    (hadmin : σ.shared.HasAdmin projectId)
    (hkept : ∀ event ∈ after, event ≠ .outer (.deleteProject projectId))
    (hτ : exec (memberProgram cfg).step σ after = some τ) : τ.shared.HasAdmin projectId := by
  obtain ⟨hbefore, hafter⟩ := guarded_append hguard hσ
  have hholds := (members_keep projectId).run (.start trivial) hbefore hσ
  have hboth := guarded_and hafter (guarded_of_forall_mem hkept σ)
  refine (exec_invariant (fun τ : Members => τ.Holds (fun _ => True) (Guards projectId)
    (fun _ _ => True) ∧ τ.shared.HasAdmin projectId) ?_ ⟨hholds, hadmin⟩ hboth hτ).2
  intro s event s' hs hg hstep
  exact ⟨(members_keep projectId).step hs.1 hg.1 hstep, hasAdmin_step hs.1 hg.1 hg.2 hs.2 hstep⟩

/-! ## §6. Three ways to lose the last admin. -/

theorem hasAdmin_iff :
    db.HasAdmin projectId ↔ ((db.listMembers projectId).any fun m => .admin ≤ m.2) = true := by
  rw [List.any_eq_true]
  constructor
  · rintro ⟨userId, role, hrole, hadmin⟩
    exact ⟨(userId, role), mem_listMembers.mpr hrole, decide_eq_true hadmin⟩
  · rintro ⟨⟨userId, role⟩, hmem, hadmin⟩
    exact ⟨userId, role, mem_listMembers.mp hmem, of_decide_eq_true hadmin⟩

instance : Decidable (db.HasAdmin projectId) := decidable_of_iff _ hasAdmin_iff.symm

/-- The next `n` calls of request `i`. -/
def calls (i n : Nat) : List MemberEvent := List.replicate n (.move i ())

/-- Users 2 and 3. -/
def twoUsers : List MemberEvent :=
  [.outer (.request (.createUser .superAdmin "ann" "twelve chars" false)),
   .outer (.request (.createUser .superAdmin "bob" "twelve chars" false))]

/-- User 2 is an admin of the default project. -/
def oneAdmin : List MemberEvent :=
  twoUsers ++ .spawn (.add .superAdmin 1 2 .admin) :: calls 0 3

/-- So is user 3. -/
def twoAdmins : List MemberEvent :=
  oneAdmin ++ .spawn (.add .superAdmin 1 3 .admin) :: calls 1 3

/-- The only admin is added again, as a viewer. -/
def demotion : List MemberEvent := .spawn (.add .superAdmin 1 2 .viewer) :: calls 1 3

/-- The only admin is deleted. -/
def deletion : List MemberEvent := .spawn (.deleteUser .superAdmin 2) :: calls 1 1

/-- Both admins are removed, each by a request that still counts two. -/
def twoRemovals : List MemberEvent :=
  [.spawn (.remove .superAdmin 1 2), .spawn (.remove .superAdmin 1 3)] ++
    calls 2 2 ++ calls 3 2 ++ calls 2 1 ++ calls 3 1

/-- The default project has an admin after the first events, and none after the others. -/
def LosesAdmin (before after : List MemberEvent) : Prop :=
  ∃ σ τ, exec (memberProgram plainConfig).step ⟨.migrated, []⟩ before = some σ ∧
    σ.shared.HasAdmin 1 ∧ exec (memberProgram plainConfig).step σ after = some τ ∧
    ¬ τ.shared.HasAdmin 1

theorem losesAdmin_of_run {before after : List MemberEvent}
    (hrun : ∃ σ ∈ exec (memberProgram plainConfig).step ⟨.migrated, []⟩ before,
      σ.shared.HasAdmin 1 ∧ ∃ τ ∈ exec (memberProgram plainConfig).step σ after,
        ¬ τ.shared.HasAdmin 1) : LosesAdmin before after := by
  obtain ⟨σ, hσ, hadmin, τ, hτ, hnone⟩ := hrun
  exact ⟨σ, τ, hσ, hadmin, hτ, hnone⟩

/-- **The last admin is lost** by a new role, by the deletion of the user, and by two
removals that overlap. -/
theorem last_admin_lost : LosesAdmin oneAdmin demotion ∧ LosesAdmin oneAdmin deletion ∧
      LosesAdmin twoAdmins twoRemovals :=
  ⟨losesAdmin_of_run (by decide +kernel), losesAdmin_of_run (by decide +kernel),
    losesAdmin_of_run (by decide +kernel)⟩

/-- The second admin is added, and then the first removed. -/
def handedOver : List MemberEvent :=
  .spawn (.add .superAdmin 1 3 .admin) :: calls 1 3 ++
    .spawn (.remove .superAdmin 1 2) :: calls 2 3

/-- A test for runs with one removal. -/
def testUndisturbed (σ : Members) : MemberEvent → Bool
  | .move i _ =>
      match σ.procs[i]? with
      | some (.setMembership _ _ role) =>
          .admin ≤ role && σ.procs.all fun pc => match pc with
            | .removeMembership .. => false
            | _ => true
      | some (.deleteUser ..) => false
      | some (.removeMembership ..) =>
          (σ.procs.eraseIdx i).all fun pc => match pc with
            | .removeMembership .. => false
            | _ => true
      | _ => true
  | _ => true

theorem undisturbed_of_test {event : MemberEvent} (h : testUndisturbed σ event = true) :
    Undisturbed projectId σ event := by
  cases event with
  | spawn | outer => trivial
  | move i =>
    cases hpc : σ.procs[i]? with
    | none => simp only [Undisturbed, hpc]
    | some pc =>
      simp only [testUndisturbed, hpc] at h
      simp only [Undisturbed, hpc]
      cases pc with
      | setMembership =>
        obtain ⟨hrole, hnone⟩ := Bool.and_eq_true_iff.mp h
        refine fun _ => ⟨fun hlow => absurd (of_decide_eq_true hrole) hlow, ?_⟩
        rintro - ⟨j, -, hj⟩
        cases List.all_eq_true.mp hnone _ (List.mem_of_getElem? hj)
      | deleteUser => cases h
      | removeMembership =>
        rintro - - target ⟨j, hj, hq⟩
        obtain ⟨hlt, hget⟩ := List.getElem?_eq_some_iff.mp hq
        have hmem : MemberPc.removeMembership projectId target ∈ σ.procs.eraseIdx i :=
          List.mem_eraseIdx_iff_getElem.mpr ⟨j, hlt, hj, hget⟩
        cases List.all_eq_true.mp h _ hmem
      | _ => trivial

theorem last_admin_kept_handed_over :
    ∃ τ, exec (memberProgram plainConfig).step ⟨.migrated, []⟩ (oneAdmin ++ handedOver) = some τ ∧
      ¬ τ.shared.IsAdmin 1 2 ∧ τ.shared.HasAdmin 1 := by
  obtain ⟨σ, hσ, hadmin, τ, hτ, hgone⟩ :
      ∃ σ ∈ exec (memberProgram plainConfig).step ⟨.migrated, []⟩ oneAdmin, σ.shared.HasAdmin 1 ∧
        ∃ τ ∈ exec (memberProgram plainConfig).step σ handedOver, τ.shared.roleFor 2 1 = none := by
    decide +kernel
  have htest : checked (memberProgram plainConfig).step testUndisturbed ⟨.migrated, []⟩
      (oneAdmin ++ handedOver) = true := by
    decide +kernel
  refine ⟨τ, (exec_append_of_eq hσ handedOver).trans hτ, ?_, ?_⟩
  · rintro ⟨role, hrole, -⟩
    simp [hgone] at hrole
  · exact last_admin_kept (guarded_of_checked (fun _ _ h => undisturbed_of_test h) htest) hσ
      hadmin (by decide) hτ

/-! ## §7. Callers from outside. -/

/-- Events of callers who are no admin of the project in `db`. -/
def FromOutside (db : Database) (projectId : Uuid) : MemberEvent → Prop
  | .spawn (.add principal ..) | .spawn (.remove principal ..)
  | .spawn (.deleteUser principal _) => ¬ db.Authorized principal projectId .admin
  | .move .. => True
  | .outer call => call ≠ .deleteProject projectId

/-- Past its role check, a call is about another project. -/
def MemberPc.Outside (db : Database) (projectId : Uuid) : MemberPc → Prop
  | .addRole principal .. | .removeRole principal .. | .deleteUser principal _ =>
      ¬ db.Authorized principal projectId .admin
  | .addUser project .. | .setMembership project .. | .listMembers project _
  | .removeMembership project _ => project ≠ projectId
  | .done _ => True

/-- Every user has the same role in the project. -/
def SameRoles (projectId : Uuid) (db db' : Database) : Prop :=
  ∀ userId, db'.roleFor userId projectId = db.roleFor userId projectId

section
variable {db0 : Database} {pc' : MemberPc}

theorem outside_after {call : Api PUnit} {next : MemberPc}
    (h : MemberPc.after call next db = (db', pc'))
    (hnext : ∀ r, Returns call db r db' → next.Outside db0 projectId) :
    pc'.Outside db0 projectId := by
  unfold MemberPc.after at h
  rcases hr : runProg call db with ⟨_ | r, db1⟩ <;> rw [hr] at h <;> cases h
  · trivial
  · exact hnext r hr

/-- **The role check** turns away who was no admin, while the roles are as they were. -/
theorem ne_of_role {principal : Principal} {project : Uuid} {r : PUnit}
    (hsame : SameRoles projectId db0 db) (hout : ¬ db0.Authorized principal projectId .admin)
    (h : Returns (ensureRole principal project .admin) db r db') : project ≠ projectId := by
  rintro rfl
  have hauth := (returns_ensureRoleOr.mp h).1
  unfold Database.Authorized at hauth
  simp only [hsame _] at hauth
  exact hout hauth

theorem outside_advance (hsame : SameRoles projectId db0 db) (hpc : pc.Outside db0 projectId)
    (h : pc.advance db = some (db', pc')) : pc'.Outside db0 projectId := by
  cases pc with
  | addRole | removeRole =>
    exact outside_after (Option.some.inj h) fun _ hr => ne_of_role hsame hpc hr
  | addUser | listMembers => exact outside_after (Option.some.inj h) fun _ _ => hpc
  | deleteUser => exact outside_after (Option.some.inj h) fun _ _ => trivial
  | setMembership | removeMembership =>
    cases h
    trivial
  | done => cases h

theorem sameRoles_advance (hpc : pc.Outside db0 projectId)
    (h : pc.advance db = some (db', pc')) : SameRoles projectId db db' := by
  cases memberMove_of_advance projectId h with
  | same hsame => exact hsame
  | raise => exact absurd rfl hpc
  | lower hlowers =>
    cases pc with
    | setMembership | removeMembership => exact absurd hlowers.1 hpc
    | deleteUser principal =>
      -- only a super admin deletes users
      have hsuper : ¬ principal.isSuperAdmin = true := fun hs => hpc (.inl hs)
      simp only [MemberPc.advance, MemberPc.after, Tenancy.deleteUser, runProg_bind,
        runProg_ensure, if_neg hsuper] at h
      cases h
      exact fun _ => rfl
    | _ => exact hlowers.elim

end

/-- **Who is no admin of a project changes no role in it**, and so never becomes one: in
every interleaving of the calls of any number of such callers, with any requests that write
no membership between them. -/
theorem outsiders_change_no_role {events : List MemberEvent}
    (hout : ∀ event ∈ events, FromOutside db projectId event)
    (h : exec (memberProgram cfg).step ⟨db, []⟩ events = some σ) :
    SameRoles projectId db σ.shared := by
  refine (exec_invariant_mem (fun τ : Members => SameRoles projectId db τ.shared ∧
    ∀ pc ∈ τ.procs, pc.Outside db projectId) ?_ ⟨fun _ => rfl, by simp⟩ hout h).1
  rintro τ event τ' ⟨hsame, hprocs⟩ hevent hstep
  cases event with
  | spawn request =>
    cases hstep
    refine ⟨hsame, List.forall_mem_append.mpr ⟨hprocs, List.forall_mem_singleton.mpr ?_⟩⟩
    cases request <;> exact hevent
  | move =>
    obtain ⟨pc, db', pc', hpc, hadvance, rfl⟩ := Program.step_move hstep
    have hold := hprocs pc (List.mem_of_getElem? hpc)
    refine ⟨fun user => (sameRoles_advance hold hadvance user).trans (hsame user), ?_⟩
    intro q hq
    rcases List.mem_or_eq_of_mem_set hq with hq | rfl
    · exact hprocs q hq
    · exact outside_advance hsame hold hadvance
  | outer =>
    obtain ⟨db', houter, rfl⟩ := Program.step_outer hstep
    rcases outer_members projectId houter with hmembers | ⟨rfl, -⟩
    · exact ⟨fun user => (hmembers user).trans (hsame user), hprocs⟩
    · exact absurd rfl hevent

/-- Ann, user 2, is the admin of project 1 and Bob, user 3, a viewer; Bob is the admin of
project 4. -/
def annAndBob : Database :=
  { Database.migrated with
    users := (Database.migrated.users.insert 2 ⟨"ann", false⟩).insert 3 ⟨"bob", false⟩
    projectMembers := (((∅ : AList fun _ : Uuid × Uuid => Role).insert (2, 1) .admin).insert
      (3, 1) .viewer).insert (3, 4) .admin }

/-- Bob's requests. -/
def bob : Principal := ⟨some 3, false⟩

/-- Bob adds Ann to project 4, with requests for the role of an admin of project 1, for Ann's
removal from it and for the deletion of Ann in between. -/
def bobsRequests : List MemberEvent :=
  [.spawn (.add bob 4 2 .operator), .spawn (.add bob 1 3 .admin), .spawn (.remove bob 1 2),
    .spawn (.deleteUser bob 2)] ++ calls 0 2 ++ calls 1 1 ++ calls 2 1 ++ calls 0 1 ++ calls 3 1

/-- Ann has a role in project 4 now, and in project 1 all is as before. -/
theorem no_role_taken :
    ∃ σ, exec (memberProgram plainConfig).step ⟨annAndBob, []⟩ bobsRequests = some σ ∧
      σ.shared.roleFor 2 4 = some .operator ∧ SameRoles 1 annAndBob σ.shared := by
  refine exists_run (fun σ => σ.shared.roleFor 2 4 = some .operator) (by decide +kernel)
    fun σ hσ hrole => ⟨hrole, outsiders_change_no_role ?_ hσ⟩
  have hviewer : annAndBob.roleFor 3 1 = some .viewer := by decide +kernel
  have hbob : ¬ annAndBob.Authorized bob 1 .admin := by
    rintro (hsuper | ⟨user, role, huser, hrole, hle⟩)
    · cases hsuper
    · cases huser
      cases hviewer.symm.trans hrole
      exact absurd hle (by decide)
  simp [bobsRequests, calls, FromOutside, hbob]

end Denia.Tenancy
