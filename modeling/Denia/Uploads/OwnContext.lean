/-
  Denia.Uploads.OwnContext — WHO uses an uploaded build context.

  No table records which service an upload id was returned for: whoever may deploy some
  service can name any id; the second of two deployments of one upload loses its directory to
  the first; and the sweep looks at the age of a directory, not at who reads it.

  Main results: `owned_step`, one step under `Disciplined`; `upload_used_by_own_service`, a
  run; `upload_used_by_others`, three runs without it.
-/
import Denia.Uploads.Api

namespace Denia.Uploads

open Lib Uploads.Task
open Tenancy (Principal Database)

/-! ## §1. What is asked for. -/

/-- What an upload request has returned, and for which service. -/
def Task.returned : Task → Option (Uuid × Uuid)
  | .upload _ serviceId (.answered (.ok response)) => some (serviceId, response.uploadId)
  | _ => none

namespace Daemon

/-- An upload request for the service has returned the id. -/
def Returned (σ : Daemon) (serviceId id : Uuid) : Prop :=
  ∃ task ∈ σ.procs, task.returned = some (serviceId, id)

instance (σ : Daemon) (serviceId id : Uuid) : Decidable (σ.Returned serviceId id) :=
  inferInstanceAs (Decidable (∃ task ∈ σ.procs, task.returned = some (serviceId, id)))

/-- It was returned for this service, and for no other. -/
def OwnedBy (σ : Daemon) (serviceId id : Uuid) : Prop :=
  σ.Returned serviceId id ∧ ∀ other, σ.Returned other id → other = serviceId

/-- Every build that is running reads a context of its own service. -/
def ReadsOwn (cfg : Config) (σ : Daemon) : Prop :=
  ∀ task ∈ σ.procs, ∀ id, task.reads cfg = some id → σ.OwnedBy task.serviceId id

/-- A step takes `uploads_dir/<id>` away. -/
def Removes (σ σ' : Daemon) (id : Uuid) : Prop :=
  σ.shared.uploads.lookup id ≠ none ∧ σ'.shared.uploads.lookup id = none

instance (σ σ' : Daemon) (id : Uuid) : Decidable (Removes σ σ' id) := by
  unfold Removes
  infer_instance

end Daemon

/-- What a step may take away: a deployment a context of its own service, and nobody one that
the build of an accepted deployment is still to read. -/
structure RemovesOwn (cfg : Config) (σ : Daemon) (event : Event Request Answer Change)
    (σ' : Daemon) : Prop where
  own : ∀ i answer principal request pc id, event = .move i answer →
    σ.procs[i]? = some (.deploy principal request pc) → Daemon.Removes σ σ' id →
    σ.OwnedBy request.serviceId id
  unused : ∀ id, Daemon.Removes σ σ' id → ∀ task ∈ σ.procs, task.builds cfg ≠ some id

/-! ## §2. The discipline. -/

/-- A deployment that is accepted names an id that was returned for its service, that no other
accepted deployment has yet to remove, and that has not expired for a sweep under way. -/
def Admissible (cfg : Config) (σ : Daemon) (task : Task) (id : Uuid) : Prop :=
  σ.Returned task.serviceId id ∧ (∀ other ∈ σ.procs, other.holds cfg ≠ some id) ∧
    ∀ now ∈ σ.shared.sweep, ∀ dir ∈ σ.shared.uploads.lookup id, expired cfg now dir.mtime = false

instance (cfg : Config) (σ : Daemon) (task : Task) (id : Uuid) :
    Decidable (Admissible cfg σ task id) := by
  unfold Admissible
  infer_instance

/-- No build that is running has an upload that has expired. -/
def BuildsInTime (cfg : Config) (σ : Daemon) : Prop :=
  ∀ task ∈ σ.procs, ∀ id ∈ task.builds cfg, ∀ dir ∈ σ.shared.uploads.lookup id,
    expired cfg σ.shared.clock dir.mtime = false

instance (cfg : Config) (σ : Daemon) : Decidable (BuildsInTime cfg σ) := by
  unfold BuildsInTime
  infer_instance

/-- **The discipline**: deployments are accepted only if admissible, and a sweep starts only
while the builds are in time. -/
def Disciplined (cfg : Config) (σ : Daemon) : Event Request Answer Change → Prop
  | .move i .ok => ∀ task ∈ σ.procs[i]?, ∀ id ∈ task.asksFor cfg, Admissible cfg σ task id
  | .outer .sweepStart => BuildsInTime cfg σ
  | _ => True

/-! ## §3. The invariant. -/

/-- Ids are new and belong to one request each; an accepted deployment has an upload of its
service to itself; and the upload of a running build is young to a sweep under way. -/
structure Owned (cfg : Config) (σ : Daemon) : Prop where
  fresh : ∀ (i : Nat) task id, σ.procs[i]? = some task → task.uploadId = some id →
    id < σ.shared.nextId
  distinct : ∀ (i j : Nat) p q id, σ.procs[i]? = some p → σ.procs[j]? = some q →
    p.uploadId = some id → q.uploadId = some id → i = j
  own : ∀ (i : Nat) task id, σ.procs[i]? = some task → task.holds cfg = some id →
    σ.Returned task.serviceId id
  apart : ∀ (i j : Nat) p q id, σ.procs[i]? = some p → σ.procs[j]? = some q →
    p.holds cfg = some id → q.holds cfg = some id → i = j
  young : ∀ (i : Nat) task id now dir, σ.procs[i]? = some task → task.builds cfg = some id →
    σ.shared.sweep = some now → σ.shared.uploads.lookup id = some dir →
    expired cfg now dir.mtime = false

theorem owned_booted (cfg : Config) (db : Database) (clock : Nat) :
    Owned cfg (booted db clock) where
  fresh i task id h := by cases h
  distinct i j p q id h := by cases h
  own i task id h := by cases h
  apart i j p q id h := by cases h
  young i task id now dir h := by cases h

variable {task : Task} {serviceId id : Uuid}

/-- A request that has returned an id is the one with that id, and is staging nothing. -/
theorem Task.uploadId_of_returned (h : task.returned = some (serviceId, id)) :
    task.uploadId = some id ∧ task.staging = none ∧ task.serviceId = serviceId := by
  cases task with
  | deploy => cases h
  | upload principal service pc =>
    cases pc with
    | answered result =>
      cases result with
      | error => cases h
      | ok =>
        injection h with h
        injection h with hservice hid
        exact ⟨congrArg some hid, rfl, hservice⟩
    | _ => cases h

theorem Task.uploadId_of_staging (h : task.staging = some id) : task.uploadId = some id := by
  cases task with
  | deploy => cases h
  | upload => exact (Option.ite_none_right_eq_some.mp h).2

variable {cfg : Config} {service : Uuid} {i : Nat} {event : Event Request Answer Change}
  {s' : Shared} {answer : Answer} {e : Change}

section
variable {σ σ' : Daemon} {task' : Task} {s : Shared}

/-- No step works on a directory whose id has been returned, or is yet to be given out. -/
theorem Owned.not_staging (hσ : Owned cfg σ) (hreturned : σ.Returned serviceId id)
    (htask : σ.procs[i]? = some task) : task.staging ≠ some id := by
  intro hstaging
  obtain ⟨other, hmem, hother⟩ := hreturned
  obtain ⟨j, hj⟩ := List.getElem?_of_mem hmem
  obtain ⟨hid, hnone, -⟩ := uploadId_of_returned hother
  have hij := hσ.distinct i j task other id htask hj (uploadId_of_staging hstaging) hid
  subst hij
  cases htask.symm.trans hj
  cases hnone.symm.trans hstaging

theorem Owned.returned_lt (hσ : Owned cfg σ) (hreturned : σ.Returned serviceId id) :
    id < σ.shared.nextId := by
  obtain ⟨task, hmem, htask⟩ := hreturned
  obtain ⟨i, hi⟩ := List.getElem?_of_mem hmem
  exact hσ.fresh i task id hi (uploadId_of_returned htask).1

/-- An id is returned for one service. -/
theorem Owned.returned_unique (hσ : Owned cfg σ) {other : Uuid} (h : σ.Returned service id)
    (hother : σ.Returned other id) : other = service := by
  obtain ⟨p, hp, hpid⟩ := h
  obtain ⟨q, hq, hqid⟩ := hother
  obtain ⟨i, hi⟩ := List.getElem?_of_mem hp
  obtain ⟨j, hj⟩ := List.getElem?_of_mem hq
  have hij := hσ.distinct i j p q id hi hj (uploadId_of_returned hpid).1
    (uploadId_of_returned hqid).1
  subst hij
  cases hi.symm.trans hj
  rw [← (uploadId_of_returned hpid).2.2, (uploadId_of_returned hqid).2.2]

theorem Owned.ownedBy (hσ : Owned cfg σ) (h : σ.Returned service id) : σ.OwnedBy service id :=
  ⟨h, fun _ hother => hσ.returned_unique h hother⟩

/-! ## §4. One step. -/

/-- A request that has been answered takes no more steps. -/
theorem advance_returned (h : advance cfg s task answer = some (s', task')) :
    task.returned = none := by
  rcases advance_cases h with ⟨_, _, pc, pc', rfl, -, hmove⟩ | ⟨_, _, _, _, rfl, -, -⟩
  · cases hmove with
    | goesOn hopen =>
      cases pc with
      | answered => cases hopen
      | _ => rfl
    | writes _ _ hopen =>
      cases pc with
      | answered => cases hopen
      | _ => rfl
    | creates | skips | removes => rfl
  · rfl

theorem returned_step (h : (requests cfg).step σ event = some σ')
    (hreturned : σ.Returned service id) : σ'.Returned service id := by
  obtain ⟨task, hmem, htask⟩ := hreturned
  obtain ⟨i, hi⟩ := List.getElem?_of_mem hmem
  rcases Program.step_proc_next h hi with ⟨-, hi'⟩ | ⟨a, s', task', -, -, hadvance⟩
  · exact ⟨task, List.mem_of_getElem? hi', htask⟩
  · simp [advance_returned hadvance] at htask

/-- A request that is accepted had its log opened. -/
theorem answer_of_accepted (h : advance cfg s task answer = some (s', task'))
    (hasks : task.asksFor cfg = some id) (hholds : task'.holds cfg = some id) : answer = .ok := by
  cases task with
  | upload => cases hasks
  | deploy principal request pc =>
    cases pc with
    | openLog =>
      cases answer with
      | ok => rfl
      | fails =>
        injection h with h
        injection h with hs htask
        subst htask
        cases hholds
      | chunk | rejected | joinError => cases h
    | _ => cases hasks

section move
variable {p p' : Task} (hp : σ.procs[i]? = some p)
  (hmove : advance cfg σ.shared p answer = some (s', p'))
include hp hmove

variable {j : Nat} {q : Task}

/-- Where an id comes from. -/
theorem uploadId_before (hq : (σ.procs.set i p')[j]? = some q) (hid : q.uploadId = some id) :
    (∃ q0, σ.procs[j]? = some q0 ∧ q0.uploadId = some id) ∨
      j = i ∧ id = σ.shared.nextId ∧ σ.shared.nextId < s'.nextId := by
  rcases getElem?_set_cases hq with ⟨rfl, rfl⟩ | ⟨-, hq⟩
  · rcases advance_uploadId hmove hid with hold | hnew
    · exact .inl ⟨p, hp, hold⟩
    · exact .inr ⟨rfl, hnew⟩
  · exact .inl ⟨q, hq, hid⟩

/-- Where the use of an upload comes from, and a build that runs. -/
theorem holds_before (hguard : Disciplined cfg σ (.move i answer))
    (hq : (σ.procs.set i p')[j]? = some q) (hholds : q.holds cfg = some id) :
    ∃ q0, σ.procs[j]? = some q0 ∧ q0.serviceId = q.serviceId ∧
      (q0.holds cfg = some id ∧ (q.builds cfg = some id → q0.builds cfg = some id) ∨
        j = i ∧ Admissible cfg σ q0 id) := by
  rcases getElem?_set_cases hq with ⟨rfl, rfl⟩ | ⟨-, hq⟩
  · refine ⟨p, hp, (advance_serviceId hmove).symm, ?_⟩
    rcases advance_holds hmove hholds with hasks | hold
    · have hok := answer_of_accepted hmove hasks hholds
      subst hok
      exact .inr ⟨rfl, hguard p hp id hasks⟩
    · exact .inl hold
  · exact ⟨q, hq, rfl, .inl ⟨hholds, fun hbuilds => hbuilds⟩⟩

/-- The directory of an id that has been returned goes only at the end of a deployment that
names it. -/
theorem Owned.dir_kept (hσ : Owned cfg σ) (hreturned : σ.Returned service id) :
    s'.uploads.lookup id = σ.shared.uploads.lookup id ∨
      p.holds cfg = some id ∧ p.builds cfg = none ∧ s'.uploads.lookup id = none := by
  rcases advance_dir hmove id with hsame | hstaging | ⟨-, hnext⟩ | hheld
  · exact .inl hsame
  · exact absurd hstaging (hσ.not_staging hreturned hp)
  · exact absurd hnext (hσ.returned_lt hreturned).ne
  · exact .inr hheld

theorem owned_move (hσ : Owned cfg σ) (hguard : Disciplined cfg σ (.move i answer)) :
    Owned cfg ⟨s', σ.procs.set i p'⟩ := by
  have hstep : (requests cfg).step σ (.move i answer) = some ⟨s', σ.procs.set i p'⟩ := by
    have hadvance : (requests cfg).advance σ.shared p answer = some (s', p') := hmove
    simp only [Program.step, hp, hadvance]
  have hnext := advance_nextId hmove
  refine ⟨?_, ?_, ?_, ?_, ?_⟩
  · intro j q id hq hid
    rcases uploadId_before hp hmove hq hid with ⟨q0, hq0, hid0⟩ | ⟨-, rfl, hlt⟩
    · exact lt_of_lt_of_le (hσ.fresh j q0 id hq0 hid0) hnext
    · exact hlt
  · intro j k q r id hq hr hqid hrid
    -- a new id is above every old one
    rcases uploadId_before hp hmove hq hqid with ⟨q0, hq0, hqid0⟩ | ⟨hj, rfl, -⟩
    · rcases uploadId_before hp hmove hr hrid with ⟨r0, hr0, hrid0⟩ | ⟨-, rfl, -⟩
      · exact hσ.distinct j k q0 r0 id hq0 hr0 hqid0 hrid0
      · exact absurd (hσ.fresh j q0 _ hq0 hqid0) (lt_irrefl _)
    · rcases uploadId_before hp hmove hr hrid with ⟨r0, hr0, hrid0⟩ | ⟨hk, -, -⟩
      · exact absurd (hσ.fresh k r0 _ hr0 hrid0) (lt_irrefl _)
      · rw [hj, hk]
  · intro j q id hq hholds
    obtain ⟨q0, hq0, hservice, hheld⟩ := holds_before hp hmove hguard hq hholds
    rw [← hservice]
    rcases hheld with ⟨hheld, -⟩ | ⟨-, hadmissible⟩
    · exact returned_step hstep (hσ.own j q0 id hq0 hheld)
    · exact returned_step hstep hadmissible.1
  · intro j k q r id hq hr hqid hrid
    obtain ⟨q0, hq0, -, hqheld⟩ := holds_before hp hmove hguard hq hqid
    obtain ⟨r0, hr0, -, hrheld⟩ := holds_before hp hmove hguard hr hrid
    -- what is admissible, nobody holds
    rcases hqheld with ⟨hqheld, -⟩ | ⟨hj, hqadm⟩
    · rcases hrheld with ⟨hrheld, -⟩ | ⟨-, hradm⟩
      · exact hσ.apart j k q0 r0 id hq0 hr0 hqheld hrheld
      · exact absurd hqheld (hradm.2.1 q0 (List.mem_of_getElem? hq0))
    · rcases hrheld with ⟨hrheld, -⟩ | ⟨hk, -⟩
      · exact absurd hrheld (hqadm.2.1 r0 (List.mem_of_getElem? hr0))
      · rw [hj, hk]
  · intro j q id now dir hq hbuilds hsweep hdir
    obtain ⟨q0, hq0, -, hheld⟩ := holds_before hp hmove hguard hq (holds_of_builds hbuilds)
    have hsweep0 : σ.shared.sweep = some now := (advance_sweep hmove).symm.trans hsweep
    have hreturned : σ.Returned q0.serviceId id := by
      rcases hheld with ⟨hheld, -⟩ | ⟨-, hadmissible⟩
      · exact hσ.own j q0 id hq0 hheld
      · exact hadmissible.1
    rcases hσ.dir_kept hp hmove hreturned with hsame | ⟨-, -, hgone⟩
    · have hdir0 : σ.shared.uploads.lookup id = some dir := hsame.symm.trans hdir
      rcases hheld with ⟨-, hbuilt⟩ | ⟨-, hadmissible⟩
      · exact hσ.young j q0 id now dir hq0 (hbuilt hbuilds) hsweep0 hdir0
      · exact hadmissible.2.2 now hsweep0 dir hdir0
    · have hdir' : s'.uploads.lookup id = some dir := hdir
      simp [hgone] at hdir'

end move

/-- A change from outside leaves the ids alone, and what a directory that stays was. -/
theorem change_kept (h : change cfg s e = some s') : s'.nextId = s.nextId ∧
      (∀ id dir, s'.uploads.lookup id = some dir → s.uploads.lookup id = some dir) ∧
      (∀ now, s'.sweep = some now → s.sweep = some now ∨ e = .sweepStart ∧ now = s.clock) := by
  cases e with
  | database =>
    cases h
    exact ⟨rfl, fun _ _ hdir => hdir, fun _ hnow => .inl hnow⟩
  | clock =>
    cases h
    exact ⟨rfl, fun _ _ hdir => hdir, fun _ hnow => .inl hnow⟩
  | sweepStart =>
    simp only [change] at h
    split at h <;> cases h
    refine ⟨rfl, fun _ _ hdir => hdir, fun now hnow => ?_⟩
    injection hnow with hnow
    exact .inr ⟨rfl, hnow.symm⟩
  | visit id =>
    simp only [change] at h
    split at h
    next => cases h
    next =>
      split at h
      next =>
        cases h
        exact ⟨rfl, fun _ _ hdir => hdir, fun _ hnow => .inl hnow⟩
      next =>
        split at h <;> cases h
        · refine ⟨rfl, fun id' dir hdir => ?_, fun _ hnow => .inl hnow⟩
          by_cases hid : id' = id
          · subst hid
            have hgone : (s.removeUpload id').uploads.lookup id' = none :=
              AList.lookup_erase _ _
            simp [hgone] at hdir
          · exact (AList.lookup_erase_ne hid).symm.trans hdir
        · exact ⟨rfl, fun _ _ hdir => hdir, fun _ hnow => .inl hnow⟩
  | sweepEnd =>
    simp only [change] at h
    split at h <;> cases h
    exact ⟨rfl, fun _ _ hdir => hdir, nofun⟩

/-- **One disciplined step keeps the invariant.** -/
theorem owned_step (hσ : Owned cfg σ) (hguard : Disciplined cfg σ event)
    (h : (requests cfg).step σ event = some σ') : Owned cfg σ' := by
  cases event with
  | spawn r =>
    cases h
    have hnew : (start r).uploadId = none ∧ (start r).holds cfg = none ∧
        (start r).builds cfg = none := by
      cases r <;> exact ⟨rfl, rfl, rfl⟩
    -- only the old tasks have an id or an upload
    have hid : ∀ (j : Nat) q id, (σ.procs ++ [start r])[j]? = some q → q.uploadId = some id →
        σ.procs[j]? = some q := by
      intro j q id hq hqid
      rcases getElem?_concat_cases hq with hq | ⟨-, rfl⟩
      · exact hq
      · simp [hnew.1] at hqid
    have hheld : ∀ (j : Nat) q id, (σ.procs ++ [start r])[j]? = some q →
        q.holds cfg = some id → σ.procs[j]? = some q := by
      intro j q id hq hqid
      rcases getElem?_concat_cases hq with hq | ⟨-, rfl⟩
      · exact hq
      · simp [hnew.2.1] at hqid
    refine ⟨?_, ?_, ?_, ?_, ?_⟩
    · exact fun j q id hq hqid => hσ.fresh j q id (hid j q id hq hqid) hqid
    · exact fun j k q r id hq hr hqid hrid =>
        hσ.distinct j k q r id (hid j q id hq hqid) (hid k r id hr hrid) hqid hrid
    · intro j q id hq hqid
      obtain ⟨task, hmem, htask⟩ := hσ.own j q id (hheld j q id hq hqid) hqid
      exact ⟨task, List.mem_append_left _ hmem, htask⟩
    · exact fun j k q r id hq hr hqid hrid =>
        hσ.apart j k q r id (hheld j q id hq hqid) (hheld k r id hr hrid) hqid hrid
    · exact fun j q id now dir hq hqid =>
        hσ.young j q id now dir (hheld j q id hq (holds_of_builds hqid)) hqid
  | move =>
    obtain ⟨p, s', p', hp, hmove, rfl⟩ := Program.step_move h
    exact owned_move hp hmove hσ hguard
  | outer =>
    obtain ⟨s', hchange, rfl⟩ := Program.step_outer h
    obtain ⟨hnext, hdirs, hsweeps⟩ := change_kept hchange
    refine ⟨?_, hσ.distinct, hσ.own, hσ.apart, ?_⟩
    · intro j q id hq hqid
      rw [hnext]
      exact hσ.fresh j q id hq hqid
    · intro j q id now dir hq hbuilds hsweep hdir
      rcases hsweeps now hsweep with hsweep | ⟨rfl, rfl⟩
      · exact hσ.young j q id now dir hq hbuilds hsweep (hdirs id dir hdir)
      · exact hguard q (List.mem_of_getElem? hq) id hbuilds dir (hdirs id dir hdir)

/-- An expired directory is all a sweep removes. -/
theorem expired_of_swept (h : change cfg s e = some s') {dir : UploadDir}
    (hdir : s.uploads.lookup id = some dir) (hgone : s'.uploads.lookup id = none) :
    ∃ now, s.sweep = some now ∧ expired cfg now dir.mtime = true := by
  cases e with
  | visit id1 =>
    simp only [change] at h
    split at h
    next => cases h
    next now hnow =>
      split at h
      next =>
        cases h
        simp [hdir] at hgone
      next dir1 hdir1 =>
        split at h <;> cases h
        next hexpired =>
          by_cases hid : id = id1
          · subst hid
            cases hdir.symm.trans hdir1
            exact ⟨now, hnow, hexpired⟩
          · have hkept : (s.removeUpload id1).uploads.lookup id = s.uploads.lookup id :=
              AList.lookup_erase_ne hid
            rw [hkept, hdir] at hgone
            cases hgone
        next =>
          simp [hdir] at hgone
  | database =>
    cases h
    exact absurd (hdir.symm.trans hgone) nofun
  | clock =>
    cases h
    exact absurd (hdir.symm.trans hgone) nofun
  | sweepStart =>
    simp only [change] at h
    split at h <;> cases h
    exact absurd (hdir.symm.trans hgone) nofun
  | sweepEnd =>
    simp only [change] at h
    split at h <;> cases h
    exact absurd (hdir.symm.trans hgone) nofun

/-- What a step takes away, under the invariant. -/
theorem Owned.removesOwn (hσ : Owned cfg σ) (h : (requests cfg).step σ event = some σ') :
    RemovesOwn cfg σ event σ' := by
  have hreturned : ∀ task ∈ σ.procs, ∀ id, task.builds cfg = some id →
      σ.Returned task.serviceId id := by
    intro task hmem id hbuilds
    obtain ⟨j, hj⟩ := List.getElem?_of_mem hmem
    exact hσ.own j task id hj (holds_of_builds hbuilds)
  cases event with
  | spawn =>
    cases h
    exact ⟨fun _ _ _ _ _ _ hevent => (nomatch hevent),
      fun id hremoves => absurd hremoves.2 hremoves.1⟩
  | move i answer =>
    obtain ⟨p, s', p', hp, hmove, rfl⟩ := Program.step_move h
    have hmove : advance cfg σ.shared p answer = some (s', p') := hmove
    refine ⟨?_, ?_⟩
    · intro j answer' principal request pc id hevent htask hremoves
      cases hevent
      cases hp.symm.trans htask
      rcases advance_dir hmove id with hsame | hstaging | ⟨hnew, -⟩ | ⟨hheld, -, -⟩
      · exact absurd (hsame.symm.trans hremoves.2) hremoves.1
      · cases hstaging
      · rw [advance_deploy_uploadId hmove] at hnew
        cases hnew
      · exact hσ.ownedBy (hσ.own i _ id hp hheld)
    · intro id hremoves task hmem hbuilds
      have hkept := hσ.dir_kept hp hmove (hreturned task hmem id hbuilds)
      rcases hkept with hsame | ⟨hheld, hnone, -⟩
      · exact absurd (hsame.symm.trans hremoves.2) hremoves.1
      · -- the one deployment that holds the id is past its build
        obtain ⟨j, hj⟩ := List.getElem?_of_mem hmem
        have hij := hσ.apart j i task p id hj hp (holds_of_builds hbuilds) hheld
        subst hij
        cases hp.symm.trans hj
        cases hnone.symm.trans hbuilds
  | outer =>
    obtain ⟨s', hchange, rfl⟩ := Program.step_outer h
    refine ⟨fun _ _ _ _ _ _ hevent => (nomatch hevent), ?_⟩
    intro id hremoves task hmem hbuilds
    obtain ⟨j, hj⟩ := List.getElem?_of_mem hmem
    obtain ⟨dir, hdir⟩ := Option.ne_none_iff_exists'.mp hremoves.1
    obtain ⟨now, hnow, hexpired⟩ := expired_of_swept hchange hdir hremoves.2
    simp [hσ.young j task id now dir hj hbuilds hnow hdir] at hexpired

theorem Owned.readsOwn (hσ : Owned cfg σ) : σ.ReadsOwn cfg := by
  intro task hmem id hreads
  obtain ⟨i, hi⟩ := List.getElem?_of_mem hmem
  exact hσ.ownedBy (hσ.own i task id hi (holds_of_builds (builds_of_reads hreads)))

end

/-! ## §5. Runs. -/

/-- **An uploaded context is used by its own service**: in every state of a disciplined run
the builds read what was uploaded for their services, and every step removes only what is its
own and what no running build is to read. -/
theorem upload_used_by_own_service (cfg : Config) (db : Database) (clock : Nat)
    {events : List (Event Request Answer Change)}
    (hguard : Guarded (requests cfg).step (Disciplined cfg) (booted db clock) events)
    {before after : List (Event Request Answer Change)} {σ : Daemon}
    (hsplit : events = before ++ after)
    (hrun : exec (requests cfg).step (booted db clock) before = some σ) :
    σ.ReadsOwn cfg ∧ ∀ event rest σ', after = event :: rest →
      (requests cfg).step σ event = some σ' → RemovesOwn cfg σ event σ' := by
  subst hsplit
  have hσ : Owned cfg σ :=
    exec_invariant (Owned cfg) (fun _ _ _ hσ hg hs => owned_step hσ hg hs)
      (owned_booted cfg db clock) (guarded_append hguard hrun).1 hrun
  exact ⟨hσ.readsOwn, fun event rest σ' _ hstep => hσ.removesOwn hstep⟩

/-! ## §6. Two projects. -/

/-- Service 10 of project 1, of which user 100 is an Operator, and service 20 of project 2, of
which user 200 is one. -/
def twoProjects : Database :=
  { Database.migrated with
    services := ((∅ : AList fun _ : Uuid => Tenancy.ServiceConfig).insert 10
      (.plain 10 1 "web")).insert 20 (.plain 20 2 "api")
    projectMembers := ((∅ : AList fun _ : Uuid × Uuid => Tenancy.Role).insert (100, 1)
      .operator).insert (200, 2) .operator }

/-- The text of id 0. -/
def zeroText : String := "00000000-0000-0000-0000-000000000000"

/-- Uploads expire after an hour. -/
def hourConfig : Config where
  uploadMaxBytes := 1000
  uploadTtlSecs := 3600
  parseUuid text := if text = zeroText then some 0 else none

/-- User 100 uploads a context for service 10; its id is 0. -/
def staged : List (Event Request Answer Change) :=
  [.spawn (.upload ⟨some 100, false⟩ 10), .move 0 .ok, .move 0 .ok, .move 0 .ok,
   .move 0 (.chunk 5), .move 0 .ok, .move 0 .ok, .move 0 .ok, .move 0 .ok, .move 0 .ok,
   .move 0 .ok]

/-- Task `i` deploys a service from upload 0, up to its build. -/
def buildsFrom (i : Nat) (userId serviceId : Uuid) : List (Event Request Answer Change) :=
  [.spawn (.deploy ⟨some userId, false⟩ (.upload serviceId zeroText "Dockerfile" ".")),
   .move i .ok, .move i .ok, .move i .ok, .move i .ok, .move i .ok, .move i .ok]

/-- The rest of its pipeline, up to the removal. -/
def endsBuild (i : Nat) : List (Event Request Answer Change) := [.move i .ok, .move i .ok]

/-- A sweep that starts after two hours. -/
def lateSweep : List (Event Request Answer Change) :=
  [.outer (.clock (7200 * second)), .outer .sweepStart]

/-- The step after a given run, by evaluation. -/
theorem exists_step {σ0 : Daemon} {events : List (Event Request Answer Change)}
    {P : Daemon → Daemon → Prop}
    (h : ∃ σ ∈ exec (requests cfg).step σ0 events, ∃ σ' ∈ (requests cfg).step σ event, P σ σ') :
    ∃ σ σ' : Daemon, exec (requests cfg).step σ0 events = some σ ∧
      (requests cfg).step σ event = some σ' ∧ P σ σ' := by
  obtain ⟨σ, hσ, σ', hσ', hP⟩ := h
  exact ⟨σ, σ', hσ, hσ', hP⟩

/-- **Contexts are used by others.**  A user with no role in project 1 builds from the context
uploaded for its service, and removes it; the first of two deployments removes the context the
second one is building from; and so does a sweep. -/
theorem upload_used_by_others :
    (∃ σ : Daemon, exec (requests hourConfig).step (booted twoProjects 0)
        (staged ++ buildsFrom 1 200 20) = some σ ∧ twoProjects.roleFor 200 1 = none ∧
      ¬ σ.ReadsOwn hourConfig) ∧
    (∃ σ σ' : Daemon, exec (requests hourConfig).step (booted twoProjects 0)
        (staged ++ buildsFrom 1 200 20 ++ endsBuild 1) = some σ ∧
      (requests hourConfig).step σ (.move 1 .ok) = some σ' ∧ Daemon.Removes σ σ' 0 ∧
      σ.Returned 10 0 ∧ ¬ σ.Returned 20 0) ∧
    (∃ σ σ' : Daemon, exec (requests hourConfig).step (booted twoProjects 0)
        (staged ++ buildsFrom 1 100 10 ++ buildsFrom 2 100 10 ++ endsBuild 1) = some σ ∧
      (requests hourConfig).step σ (.move 1 .ok) = some σ' ∧ Daemon.Removes σ σ' 0 ∧
      ∃ task ∈ σ.procs, task.builds hourConfig = some 0) ∧
    ∃ σ σ' : Daemon, exec (requests hourConfig).step (booted twoProjects 0)
        (staged ++ buildsFrom 1 100 10 ++ lateSweep) = some σ ∧
      (requests hourConfig).step σ (.outer (.visit 0)) = some σ' ∧ Daemon.Removes σ σ' 0 ∧
      ∃ task ∈ σ.procs, task.builds hourConfig = some 0 := by
  refine ⟨?_, ?_, ?_, ?_⟩
  · refine exists_run (fun σ => ¬ σ.Returned 20 0 ∧
      ∃ task ∈ σ.procs, task.reads hourConfig = some 0 ∧ task.serviceId = 20) (by decide +kernel)
      fun σ _ hend => ⟨by decide +kernel, fun hown => ?_⟩
    obtain ⟨hnot, task, hmem, hreads, hservice⟩ := hend
    refine hnot ?_
    rw [← hservice]
    exact (hown task hmem 0 hreads).1
  · refine exists_step ?_
    decide +kernel
  · refine exists_step ?_
    decide +kernel
  · refine exists_step ?_
    decide +kernel

instance (cfg : Config) (σ : Daemon) (event : Event Request Answer Change) :
    Decidable (Disciplined cfg σ event) := by
  unfold Disciplined
  split <;> infer_instance

/-- User 100 deploys from the upload, with a sweep while it builds. -/
theorem upload_used_alone : ∃ σ : Daemon, exec (requests hourConfig).step (booted twoProjects 0)
        (staged ++ buildsFrom 1 100 10) = some σ ∧
      (∃ task ∈ σ.procs, task.reads hourConfig = some 0) ∧ σ.ReadsOwn hourConfig := by
  refine exists_run (fun σ => ∃ task ∈ σ.procs, task.reads hourConfig = some 0)
    (by decide +kernel) fun σ hσ hreads => ⟨hreads, ?_⟩
  have hcheck : checked (requests hourConfig).step
      (fun σ event => decide (Disciplined hourConfig σ event)) (booted twoProjects 0)
      ((staged ++ buildsFrom 1 100 10) ++ ([.outer .sweepStart, .outer (.visit 0)] ++
        endsBuild 1 ++ [.move 1 .ok])) = true := by
    decide +kernel
  have hdisciplined : ∀ σ event, decide (Disciplined hourConfig σ event) = true →
      Disciplined hourConfig σ event := fun _ _ h => of_decide_eq_true h
  have hguard := guarded_of_checked hdisciplined hcheck
  exact (upload_used_by_own_service hourConfig twoProjects 0 hguard rfl hσ).1

end Denia.Uploads
