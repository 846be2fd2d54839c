/-
  Denia.Jobs.Store — the job and job-run tables (`src/repo/sqlite/jobs.rs`).

  Every call takes the one database connection, so each is one step of whoever makes it.
  The run table has no foreign key: a run may be inserted for a job that is gone.  Times
  other than a job's next and last fire, and what a job executes, are not modelled.

  Main results: `activeRun_eq_none`, what `active_run` answers; `active_insertRun` and its
  companions, which rows are Pending or Running after each write.
-/
import Denia.Domain
import Mathlib.Data.List.AList

namespace Denia.Jobs

/-! ## §1. The tables. -/

/-- `JobRunStatus`. -/
inductive JobRunStatus where
  | pending
  | running
  | succeeded
  | failed
  | skipped
  deriving DecidableEq

/-- What `active_run` looks for. -/
def JobRunStatus.active : JobRunStatus → Bool
  | .pending | .running => true
  | .succeeded | .failed | .skipped => false

/-- `Job`. -/
structure Job where
  id : Uuid
  schedule : Option String
  maxRetries : Nat
  nextRunAt : Option Nat
  lastEnqueuedAt : Option Nat

/-- `JobRun`. -/
structure JobRun where
  id : Uuid
  jobId : Uuid
  status : JobRunStatus
  attempt : Nat
  exitCode : Option Int
  deriving DecidableEq

/-- `RepoError`. -/
inductive RepoError where
  | invalidCredentials
  | sqlite (reason : String)

/-- The two tables, the runs newest first.  A job row holds the job of its id
(`parse_job_row` refuses others), run ids are primary keys, and `nextId` is the next
`Uuid::now_v7()`. -/
structure JobStore where
  jobs : AList fun _ : Uuid => Job
  runs : List JobRun
  nextId : Uuid
  jobs_id : ∀ id job, jobs.lookup id = some job → job.id = id
  run_id_lt : ∀ run ∈ runs, run.id < nextId
  run_id_unique : (runs.map (·.id)).Nodup

namespace JobStore

/-- `get_job`. -/
def getJob (db : JobStore) (id : Uuid) : Option Job := db.jobs.lookup id

/-- Write a job row. -/
def writeJob (db : JobStore) (job : Job) : JobStore :=
  { db with
    jobs := db.jobs.insert job.id job
    jobs_id := by
      intro id job' h
      by_cases hid : id = job.id
      · subst hid
        rw [AList.lookup_insert] at h
        injection h with h
        rw [h]
      · rw [AList.lookup_insert_ne hid] at h
        exact db.jobs_id id job' h }

/-- `put_job`; `none` if the id is taken. -/
def putJob (db : JobStore) (job : Job) : Option JobStore :=
  match db.getJob job.id with
  | some _ => none
  | none => some (db.writeJob job)

/-- `delete_job`: the runs of the job and the job. -/
def deleteJob (db : JobStore) (jobId : Uuid) : JobStore :=
  { db with
    jobs := db.jobs.erase jobId
    runs := db.runs.filter (·.jobId ≠ jobId)
    jobs_id := by
      intro id job h
      by_cases hid : id = jobId
      · subst hid
        rw [AList.lookup_erase] at h
        cases h
      · rw [AList.lookup_erase_ne hid] at h
        exact db.jobs_id id job h
    run_id_lt := fun run hrun => db.run_id_lt run (List.mem_filter.mp hrun).1
    run_id_unique := db.run_id_unique.sublist (List.filter_sublist.map _) }

/-- Insert a run of the job under a fresh id. -/
def insertRun (db : JobStore) (jobId : Uuid) (status : JobRunStatus) : JobStore × JobRun :=
  let run : JobRun := ⟨db.nextId, jobId, status, 1, none⟩
  ({ db with
     runs := run :: db.runs
     nextId := db.nextId + 1
     run_id_lt := by
       intro r hr
       rcases List.mem_cons.mp hr with rfl | hr
       · exact Nat.lt_succ_self _
       · exact Nat.lt_succ_of_lt (db.run_id_lt r hr)
     run_id_unique := by
       rw [List.map_cons, List.nodup_cons]
       refine ⟨fun hmem => ?_, db.run_id_unique⟩
       obtain ⟨r, hr, hid⟩ := List.mem_map.mp hmem
       exact Nat.ne_of_lt (db.run_id_lt r hr) hid }, run)

/-- `create_job_run`. -/
def createJobRun (db : JobStore) (jobId : Uuid) : JobStore × JobRun := db.insertRun jobId .pending

/-- `create_skipped_run`. -/
def createSkippedRun (db : JobStore) (jobId : Uuid) : JobStore × JobRun :=
  db.insertRun jobId .skipped

/-- `list_job_runs`. -/
def listJobRuns (db : JobStore) (jobId : Uuid) : List JobRun := db.runs.filter (·.jobId = jobId)

/-- `active_run`. -/
def activeRun (db : JobStore) (jobId : Uuid) : Option JobRun :=
  (db.listJobRuns jobId).find? (·.status.active)

/-- `UPDATE job_runs SET ... WHERE id`, for an update that keeps the id. -/
def modifyRun (db : JobStore) (id : Uuid) (f : JobRun → JobRun) (hf : ∀ run, (f run).id = run.id) :
    JobStore :=
  { db with
    runs := db.runs.map fun run => if run.id = id then f run else run
    run_id_lt := by
      intro run hrun
      obtain ⟨r, hr, rfl⟩ := List.mem_map.mp hrun
      split
      · rw [hf]
        exact db.run_id_lt r hr
      · exact db.run_id_lt r hr
    run_id_unique := by
      have hids : (db.runs.map fun run => if run.id = id then f run else run).map (·.id)
          = db.runs.map (·.id) := by
        rw [List.map_map]
        refine List.map_congr_left fun run _ => ?_
        show (if run.id = id then f run else run).id = run.id
        split
        · exact hf run
        · rfl
      rw [hids]
      exact db.run_id_unique }

/-- `update_job_run`. -/
def updateJobRun (db : JobStore) (runId : Uuid) (status : JobRunStatus) (exitCode : Option Int) :
    JobStore :=
  db.modifyRun runId (fun run => { run with status := status, exitCode := exitCode }) fun _ => rfl

/-- `start_job_run`. -/
def startJobRun (db : JobStore) (runId : Uuid) (attempt : Nat) : JobStore :=
  db.modifyRun runId (fun run => { run with status := .running, attempt := attempt }) fun _ => rfl

/-- `fail_orphan_runs`, which boot calls before the scheduler and the executor exist. -/
def failOrphanRuns (db : JobStore) : JobStore :=
  { db with
    runs := db.runs.map fun run => if run.status.active then { run with status := .failed } else run
    run_id_lt := by
      intro run hrun
      obtain ⟨r, hr, rfl⟩ := List.mem_map.mp hrun
      split <;> exact db.run_id_lt r hr
    run_id_unique := by
      have hids : (db.runs.map fun run =>
          if run.status.active then { run with status := .failed } else run).map (·.id)
          = db.runs.map (·.id) := by
        rw [List.map_map]
        refine List.map_congr_left fun run _ => ?_
        show (if run.status.active then { run with status := .failed } else run : JobRun).id
          = run.id
        split <;> rfl
      rw [hids]
      exact db.run_id_unique }

/-- `claim_due_jobs`. -/
def claimDueJobs (db : JobStore) (now : Nat) : List Job :=
  (db.jobs.entries.map (·.2)).filter fun job =>
    match job.nextRunAt with
    | some next => next ≤ now
    | none => false

/-- `set_job_next_run`; the row of a job that is gone is an error. -/
def setJobNextRun (db : JobStore) (jobId : Uuid) (nextRunAt lastEnqueuedAt : Option Nat) :
    Except RepoError JobStore :=
  match db.getJob jobId with
  | none => .error .invalidCredentials
  | some job =>
      .ok (db.writeJob { job with nextRunAt := nextRunAt, lastEnqueuedAt := lastEnqueuedAt })

/-! ## §2. Active rows. -/

/-- The run `id` of the job is Pending or Running. -/
def Active (db : JobStore) (jobId id : Uuid) : Prop :=
  ∃ run ∈ db.runs, run.id = id ∧ run.jobId = jobId ∧ run.status.active = true

/-- The run `id`, unless it is deleted, is Pending or Running. -/
def Unfinished (db : JobStore) (id : Uuid) : Prop :=
  ∀ run ∈ db.runs, run.id = id → run.status.active = true

variable {db : JobStore} {jobId j id x : Uuid} {f : JobRun → JobRun}

theorem activeRun_eq_none : db.activeRun jobId = none ↔ ∀ id, ¬ db.Active jobId id := by
  unfold activeRun listJobRuns
  rw [List.find?_eq_none]
  constructor
  · rintro h id ⟨run, hrun, -, hjob, hactive⟩
    exact h run (List.mem_filter.mpr ⟨hrun, by simpa using hjob⟩) hactive
  · intro h run hrun hactive
    obtain ⟨hrun, hjob⟩ := List.mem_filter.mp hrun
    exact h run.id ⟨run, hrun, rfl, by simpa using hjob, hactive⟩

theorem active_insertRun {status : JobRunStatus} : (db.insertRun jobId status).1.Active j id ↔
      db.Active j id ∨ status.active = true ∧ j = jobId ∧ id = db.nextId := by
  constructor
  · rintro ⟨run, hrun, rfl, rfl, hactive⟩
    rcases List.mem_cons.mp hrun with rfl | hrun
    · exact .inr ⟨hactive, rfl, rfl⟩
    · exact .inl ⟨run, hrun, rfl, rfl, hactive⟩
  · rintro (⟨run, hrun, h⟩ | ⟨hactive, rfl, rfl⟩)
    · exact ⟨run, List.mem_cons_of_mem _ hrun, h⟩
    · exact ⟨_, List.mem_cons_self, rfl, rfl, hactive⟩

/-- A new row is nobody else's. -/
theorem Unfinished.insertRun (h : db.Unfinished id) (hid : id < db.nextId) (jobId : Uuid)
    (status : JobRunStatus) : (db.insertRun jobId status).1.Unfinished id := by
  intro run hrun heq
  rcases List.mem_cons.mp hrun with rfl | hrun
  · exact absurd heq.symm (Nat.ne_of_lt hid)
  · exact h run hrun heq

theorem unfinished_created (jobId : Uuid) :
    (db.createJobRun jobId).1.Unfinished (db.createJobRun jobId).2.id := by
  intro run hrun heq
  rcases List.mem_cons.mp hrun with rfl | hrun
  · rfl
  · exact absurd heq (Nat.ne_of_lt (db.run_id_lt run hrun))

/-- An update makes no row active that was not. -/
theorem active_modifyRun (hf : ∀ run, (f run).id = run.id) (hjob : ∀ run, (f run).jobId = run.jobId)
    (hactive : ∀ run ∈ db.runs, run.id = x → (f run).status.active = true →
      run.status.active = true) (h : (db.modifyRun x f hf).Active j id) : db.Active j id := by
  obtain ⟨run, hrun, rfl, rfl, hrunActive⟩ := h
  obtain ⟨r, hr, rfl⟩ := List.mem_map.mp hrun
  by_cases hx : r.id = x
  · simp only [hx, if_true] at hrunActive ⊢
    exact ⟨r, hr, (hf r).symm, (hjob r).symm, hactive r hr hx hrunActive⟩
  · simp only [hx, if_false] at hrunActive ⊢
    exact ⟨r, hr, rfl, rfl, hrunActive⟩

/-- An update of one run leaves the others unfinished. -/
theorem Unfinished.modifyRun (h : db.Unfinished id) (hf : ∀ run, (f run).id = run.id)
    (hkeeps : id = x → ∀ run, (f run).status.active = true) :
    (db.modifyRun x f hf).Unfinished id := by
  intro run hrun heq
  obtain ⟨r, hr, rfl⟩ := List.mem_map.mp hrun
  by_cases hx : r.id = x
  · simp only [hx, if_true] at heq ⊢
    rw [hf, hx] at heq
    exact hkeeps heq.symm r
  · simp only [hx, if_false] at heq ⊢
    exact h r hr heq

theorem active_deleteJob (h : (db.deleteJob x).Active j id) : db.Active j id := by
  obtain ⟨run, hrun, h⟩ := h
  exact ⟨run, (List.mem_filter.mp hrun).1, h⟩

theorem Unfinished.deleteJob (h : db.Unfinished id) (x : Uuid) : (db.deleteJob x).Unfinished id :=
  fun run hrun => h run (List.mem_filter.mp hrun).1

/-- After boot no run is active. -/
theorem not_active_failOrphanRuns : ¬ db.failOrphanRuns.Active j id := by
  rintro ⟨run, hrun, -, -, hactive⟩
  obtain ⟨r, -, rfl⟩ := List.mem_map.mp hrun
  split at hactive
  next => cases hactive
  next hnot => exact hnot hactive

end JobStore

end Denia.Jobs
