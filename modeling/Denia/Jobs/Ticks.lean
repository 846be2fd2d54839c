/-
  Denia.Jobs.Ticks — scheduler ticks, ONE AFTER ANOTHER (`Scheduler::tick`,
  `compute_next_run`, `src/scheduler.rs`).

  A tick lists the due jobs, and for each of them inserts a run row and moves the job's
  cursor `next_run_at`, to a time later than the tick; so a stored value is found due once.
  Here no call fails and no other writer of jobs is about; an executor may start and finish
  runs between two ticks.  The cron library is a function from a schedule and an instant.

  Main results: `tick_spec`, one tick; `due_fire_yields_one_row`, every run; `tick_alone`, a
  tick of `Denia.Jobs.Scheduler` that runs alone is `JobStore.tick`.
-/
import Denia.Jobs.Scheduler
import Denia.Lib.Run
import Mathlib.Logic.Relation

namespace Denia.Jobs

open Lib

/-! ## §1. One tick. -/

section
variable (cron : Cron) (now : Nat)

/-- The body of the loop of `tick`: the tables, and the run to hand over. -/
def fire (db : JobStore) (job : Job) : Except RepoError (JobStore × Option JobRun) :=
  match db.activeRun job.id with
  | some _ => do
      let db ← (db.createSkippedRun job.id).1.setJobNextRun job.id (computeNextRun cron job now)
        (some now)
      pure (db, none)
  | none => do
      let (db, run) := db.createJobRun job.id
      let db ← db.setJobNextRun job.id (computeNextRun cron job now) (some now)
      pure (db, some run)

/-- The loop over the due jobs. -/
def fireAll : List Job → List JobRun → JobStore → Except RepoError (JobStore × List JobRun)
  | [], enqueued, db => pure (db, enqueued)
  | job :: due, enqueued, db => do
      let (db, run) ← fire cron now db job
      fireAll due (enqueued ++ run.toList) db

/-- `tick`. -/
def JobStore.tick (db : JobStore) : Except RepoError (JobStore × List JobRun) :=
  fireAll cron now (db.claimDueJobs now) [] db

end

/-- The filter of `claim_due_jobs`. -/
def Job.due (job : Job) (now : Nat) : Bool :=
  match job.nextRunAt with
  | some next => next ≤ now
  | none => false

/-! ## §2. What a tick does for a job. -/

/-- The job and its runs are as they were. -/
structure Kept (id : Uuid) (db db' : JobStore) : Prop where
  runs : db'.listJobRuns id = db.listJobRuns id
  job : db'.getJob id = db.getJob id

/-- One row more: Skipped if a run of the job is active, and Pending if none is. -/
def NewRow (jobId : Uuid) (db db' : JobStore) : Prop :=
  ∃ runId status, db'.listJobRuns jobId = ⟨runId, jobId, status, 1, none⟩ :: db.listJobRuns jobId ∧
    (status = .skipped ∧ (∃ id, db.Active jobId id) ∨
      status = .pending ∧ ∀ id, ¬ db.Active jobId id)

/-- One row more, and the cursor moved. -/
structure Fired (cron : Cron) (now : Nat) (job : Job) (db db' : JobStore) : Prop where
  runs : NewRow job.id db db'
  job : db'.getJob job.id
    = some { job with nextRunAt := computeNextRun cron job now, lastEnqueuedAt := some now }

theorem Kept.refl (id : Uuid) (db : JobStore) : Kept id db db := ⟨rfl, rfl⟩

variable {id : Uuid} {db1 : JobStore}

theorem Kept.trans {db2 db3 : JobStore} (h : Kept id db1 db2) (h' : Kept id db2 db3) :
    Kept id db1 db3 :=
  ⟨h'.runs.trans h.runs, h'.job.trans h.job⟩

variable {db db' : JobStore}

theorem active_iff_listed {runId : Uuid} : db.Active id runId ↔
      ∃ run ∈ db.listJobRuns id, run.id = runId ∧ run.status.active = true := by
  simp only [JobStore.Active, JobStore.listJobRuns, List.mem_filter, decide_eq_true_eq]
  constructor
  · rintro ⟨run, hrun, hid, hjob, hactive⟩
    exact ⟨run, ⟨hrun, hjob⟩, hid, hactive⟩
  · rintro ⟨run, ⟨hrun, hjob⟩, hid, hactive⟩
    exact ⟨run, hrun, hid, hjob, hactive⟩

theorem Kept.active (h : Kept id db db') (runId : Uuid) :
    db'.Active id runId ↔ db.Active id runId := by
  rw [active_iff_listed, active_iff_listed, h.runs]

variable {cron : Cron} {now : Nat} {job : Job} {due : List Job}

/-- What is done to a job later or earlier in the tick does not change what `fire` does. -/
theorem Fired.after (h : Fired cron now job db db') (hkept : Kept job.id db' db1) :
    Fired cron now job db db1 := by
  obtain ⟨runId, status, hruns, hstatus⟩ := h.runs
  exact ⟨⟨runId, status, hkept.runs.trans hruns, hstatus⟩, hkept.job.trans h.job⟩

theorem Fired.before (h : Fired cron now job db db') {db0 : JobStore}
    (hkept : Kept job.id db0 db) : Fired cron now job db0 db' := by
  obtain ⟨runId, status, hruns, hstatus⟩ := h.runs
  refine ⟨⟨runId, status, by rw [hruns, hkept.runs], ?_⟩, h.job⟩
  simpa only [hkept.active] using hstatus

theorem listJobRuns_insertRun (db : JobStore) (jobId : Uuid) (status : JobRunStatus) (id : Uuid) :
    (db.insertRun jobId status).1.listJobRuns id
      = if jobId = id then ⟨db.nextId, jobId, status, 1, none⟩ :: db.listJobRuns id
        else db.listJobRuns id := by
  show List.filter _ (_ :: db.runs) = _
  rw [List.filter_cons]
  simp only [decide_eq_true_eq]
  rfl

/-- The insert and the move of the cursor, whatever the status of the row. -/
theorem fired_insertRun (cron : Cron) (now : Nat)
    (hjob : db.getJob job.id = some job) (status : JobRunStatus)
    (hstatus : status = .skipped ∧ (∃ id, db.Active job.id id) ∨
      status = .pending ∧ ∀ id, ¬ db.Active job.id id) :
    ∃ db', (db.insertRun job.id status).1.setJobNextRun job.id (computeNextRun cron job now)
        (some now) = .ok db' ∧
      Fired cron now job db db' ∧ ∀ id, id ≠ job.id → Kept id db db' := by
  have hjob' : (db.insertRun job.id status).1.getJob job.id = some job := hjob
  refine ⟨_, by rw [JobStore.setJobNextRun, hjob'], ⟨⟨db.nextId, status, ?_, hstatus⟩, ?_⟩, ?_⟩
  · exact (listJobRuns_insertRun db job.id status job.id).trans (if_pos rfl)
  · exact AList.lookup_insert _
  · intro id hid
    refine ⟨?_, AList.lookup_insert_ne hid⟩
    exact (listJobRuns_insertRun db job.id status id).trans (if_neg fun h => hid h.symm)

/-- **One due job**: its row and its cursor, and nothing else. -/
theorem fire_spec (cron : Cron) (now : Nat) (hjob : db.getJob job.id = some job) :
    ∃ db' run, fire cron now db job = .ok (db', run) ∧ Fired cron now job db db' ∧
      ∀ id, id ≠ job.id → Kept id db db' := by
  cases hactive : db.activeRun job.id with
  | some =>
    have hsome : ∃ id, db.Active job.id id := by
      by_contra hnone
      rw [JobStore.activeRun_eq_none.mpr (not_exists.mp hnone)] at hactive
      cases hactive
    obtain ⟨db', hset, hfired⟩ := fired_insertRun cron now hjob .skipped (.inl ⟨rfl, hsome⟩)
    refine ⟨db', none, ?_, hfired⟩
    simp only [fire, hactive, JobStore.createSkippedRun, hset]
    rfl
  | none =>
    obtain ⟨db', hset, hfired⟩ := fired_insertRun cron now hjob .pending
      (.inr ⟨rfl, JobStore.activeRun_eq_none.mp hactive⟩)
    refine ⟨db', some (db.createJobRun job.id).2, ?_, hfired⟩
    simp only [fire, hactive]
    show ((db.insertRun job.id .pending).1.setJobNextRun _ _ _).bind _ = _
    rw [hset]
    rfl

/-- **The loop**: by induction on the due jobs, which are different rows of the table. -/
theorem fireAll_spec (cron : Cron) (now : Nat) (enqueued : List JobRun)
    (hnodup : (due.map (·.id)).Nodup) (hrows : ∀ job ∈ due, db.getJob job.id = some job) :
    ∃ db' enqueued', fireAll cron now due enqueued db = .ok (db', enqueued') ∧
      (∀ job ∈ due, Fired cron now job db db') ∧
      ∀ id, id ∉ due.map (·.id) → Kept id db db' := by
  induction due generalizing db enqueued with
  | nil => exact ⟨db, enqueued, rfl, nofun, fun id _ => .refl id db⟩
  | cons job due ih =>
    rw [List.map_cons, List.nodup_cons] at hnodup
    obtain ⟨hnot, hnodup⟩ := hnodup
    obtain ⟨db1, run, hfire, hfired, hkept⟩ :=
      fire_spec cron now (hrows job List.mem_cons_self)
    have hother : ∀ other ∈ due, other.id ≠ job.id := by
      intro other hmem heq
      exact hnot (heq ▸ List.mem_map_of_mem hmem)
    have hrows1 : ∀ other ∈ due, db1.getJob other.id = some other := by
      intro other hmem
      rw [(hkept other.id (hother other hmem)).job]
      exact hrows other (List.mem_cons_of_mem _ hmem)
    obtain ⟨db', enqueued', hall, hfireds, hkepts⟩ :=
      ih (enqueued ++ run.toList) hnodup hrows1
    refine ⟨db', enqueued', ?_, ?_, ?_⟩
    · show (fire cron now db job).bind _ = _
      rwa [hfire]
    · intro other hmem
      rcases List.mem_cons.mp hmem with rfl | hmem
      · exact hfired.after (hkepts _ hnot)
      · exact (hfireds other hmem).before (hkept _ (hother other hmem))
    · intro id hid
      rw [List.map_cons, List.mem_cons, not_or] at hid
      exact (hkept id hid.1).trans (hkepts id hid.2)

theorem mem_claimDueJobs :
    job ∈ db.claimDueJobs now ↔ db.getJob job.id = some job ∧ job.due now = true := by
  unfold JobStore.claimDueJobs JobStore.getJob
  rw [List.mem_filter, List.mem_map]
  constructor
  · rintro ⟨⟨⟨id, job1⟩, hmem, rfl⟩, hdue⟩
    have hlookup : db.jobs.lookup id = some job1 := AList.mem_lookup_iff.mpr hmem
    refine ⟨?_, hdue⟩
    rwa [db.jobs_id id job1 hlookup]
  · rintro ⟨hlookup, hdue⟩
    exact ⟨⟨⟨job.id, job⟩, AList.mem_lookup_iff.mp hlookup, rfl⟩, hdue⟩

/-- A job is due once. -/
theorem nodup_claimDueJobs (db : JobStore) (now : Nat) :
    ((db.claimDueJobs now).map (·.id)).Nodup := by
  have hids : (db.jobs.entries.map (·.2)).map (·.id) = db.jobs.keys := by
    rw [List.map_map]
    refine List.map_congr_left fun e he => ?_
    exact db.jobs_id e.1 e.2 (AList.mem_lookup_iff.mpr he)
  refine List.Nodup.sublist (List.filter_sublist.map _) ?_
  rw [hids]
  exact db.jobs.keys_nodup

/-- **One tick**: a row and a new cursor for each due job, and nothing for any other. -/
theorem tick_spec (cron : Cron) (now : Nat) (db : JobStore) :
    ∃ db' enqueued, db.tick cron now = .ok (db', enqueued) ∧
      (∀ job, db.getJob job.id = some job → job.due now = true → Fired cron now job db db') ∧
      ∀ id, (∀ job, db.getJob id = some job → job.due now = false) → Kept id db db' := by
  obtain ⟨db', enqueued, htick, hfired, hkept⟩ := fireAll_spec cron now []
    (nodup_claimDueJobs db now) fun job hmem => (mem_claimDueJobs.mp hmem).1
  refine ⟨db', enqueued, htick, fun job hjob hdue => hfired job (mem_claimDueJobs.mpr ⟨hjob, hdue⟩),
    fun id hnot => hkept id fun hid => ?_⟩
  obtain ⟨job, hmem, rfl⟩ := List.mem_map.mp hid
  obtain ⟨hjob, hdue⟩ := mem_claimDueJobs.mp hmem
  simp [hnot job hjob] at hdue

/-! ## §3. Runs. -/

/-- A tick, or what an executor does to a run. -/
inductive ScheduleEvent where
  | tick (now : Nat)
  | startJobRun (runId : Uuid) (attempt : Nat)
  | updateJobRun (runId : Uuid) (status : JobRunStatus) (exitCode : Option Int)

/-- One event. -/
def scheduleStep (cron : Cron) (db : JobStore) : ScheduleEvent → Option JobStore
  | .tick now =>
      match db.tick cron now with
      | .ok (db', _) => some db'
      | .error _ => none
  | .startJobRun runId attempt => some (db.startJobRun runId attempt)
  | .updateJobRun runId status exitCode => some (db.updateJobRun runId status exitCode)

/-- The cursor of a job that is due. -/
def JobStore.dueAt (db : JobStore) (jobId : Uuid) (now : Nat) : Option Nat :=
  (db.getJob jobId).bind fun job => if job.due now then job.nextRunAt else none

/-- The cursor values at which a job fires in a run. -/
def fires (cron : Cron) (jobId : Uuid) : JobStore → List ScheduleEvent → List Nat
  | _, [] => []
  | db, event :: events =>
      (match event with
        | .tick now => (db.dueAt jobId now).toList
        | _ => []) ++
      match scheduleStep cron db event with
      | none => []
      | some db' => fires cron jobId db' events

/-- What a tick owes a job: one row if it is due and none otherwise, and a cursor that is
empty or later than the tick. -/
structure OneRow (now : Nat) (jobId : Uuid) (db db' : JobStore) : Prop where
  due : (db.dueAt jobId now).isSome = true → NewRow jobId db db'
  idle : db.dueAt jobId now = none → db'.listJobRuns jobId = db.listJobRuns jobId
  cursor : ∀ job next, db'.getJob jobId = some job → job.nextRunAt = some next → now < next

/-- "The next fire after an instant is later than it." -/
def Later (cron : Cron) : Prop :=
  ∀ schedule after next, cron schedule after = some next → after < next

section
variable {jobId : Uuid}

theorem computeNextRun_later (hcron : Later cron) {next : Nat}
    (h : computeNextRun cron job now = some next) : now < next := by
  unfold computeNextRun at h
  split at h
  next => cases h
  next schedule _ => exact hcron schedule now next h

theorem dueAt_eq_some {v : Nat} (h : db.dueAt jobId now = some v) :
    ∃ job, db.getJob jobId = some job ∧ job.due now = true ∧ job.nextRunAt = some v ∧ v ≤ now := by
  obtain ⟨job, hjob, hv⟩ := Option.bind_eq_some_iff.mp h
  obtain ⟨hdue, hnext⟩ := Option.ite_none_right_eq_some.mp hv
  refine ⟨job, hjob, hdue, hnext, ?_⟩
  unfold Job.due at hdue
  rw [hnext] at hdue
  exact of_decide_eq_true hdue

/-- A job that is not due has an empty or a later cursor. -/
theorem not_due_of_dueAt (h : db.dueAt jobId now = none) (hjob : db.getJob jobId = some job) :
    job.due now = false ∧ ∀ next, job.nextRunAt = some next → now < next := by
  have hnone : (if job.due now then job.nextRunAt else none) = none := by
    unfold JobStore.dueAt at h
    rwa [hjob] at h
  cases hdue : job.due now with
  | true =>
    -- a job without a cursor is not due
    rw [hdue, if_pos rfl] at hnone
    unfold Job.due at hdue
    simp [hnone] at hdue
  | false =>
    refine ⟨rfl, fun next hnext => ?_⟩
    unfold Job.due at hdue
    rw [hnext] at hdue
    exact Nat.lt_of_not_le (of_decide_eq_false hdue)

/-- **One tick owes every job its due.** -/
theorem oneRow_tick (hcron : Later cron) (h : scheduleStep cron db (.tick now) = some db')
    (jobId : Uuid) : OneRow now jobId db db' := by
  obtain ⟨db1, enqueued, htick, hfired, hkept⟩ := tick_spec cron now db
  have hdb : db1 = db' := by
    simp only [scheduleStep, htick] at h
    injection h
  subst hdb
  cases hdue : db.dueAt jobId now with
  | some =>
    obtain ⟨job, hjob, hisDue, -, -⟩ := dueAt_eq_some hdue
    have hid := db.jobs_id jobId job hjob
    subst hid
    have hf := hfired job hjob hisDue
    refine ⟨fun _ => hf.runs, (by rw [hdue]; nofun), ?_⟩
    intro job' next hjob' hnext'
    rw [hf.job] at hjob'
    cases hjob'
    exact computeNextRun_later hcron hnext'
  | none =>
    have hk := hkept jobId fun job hjob => (not_due_of_dueAt hdue hjob).1
    refine ⟨(by rw [hdue]; nofun), fun _ => hk.runs, ?_⟩
    intro job' next hjob' hnext'
    rw [hk.job] at hjob'
    exact (not_due_of_dueAt hdue hjob').2 next hnext'

/-- Ticks do not fail. -/
theorem scheduleStep_isSome (cron : Cron) (db : JobStore)
    (event : ScheduleEvent) : ∃ db', scheduleStep cron db event = some db' := by
  cases event with
  | tick now =>
    obtain ⟨db', enqueued, htick, -⟩ := tick_spec cron now db
    exact ⟨db', by simp only [scheduleStep, htick]⟩
  | startJobRun => exact ⟨_, rfl⟩
  | updateJobRun => exact ⟨_, rfl⟩

theorem length_listJobRuns_modifyRun {x : Uuid} {f : JobRun → JobRun}
    (hf : ∀ run, (f run).id = run.id) (hjob : ∀ run, (f run).jobId = run.jobId) :
    ((db.modifyRun x f hf).listJobRuns jobId).length = (db.listJobRuns jobId).length := by
  show (List.filter _ (List.map _ db.runs)).length = (List.filter _ db.runs).length
  rw [← List.countP_eq_length_filter, ← List.countP_eq_length_filter, List.countP_map]
  refine List.countP_congr fun run _ => ?_
  simp only [Function.comp_apply, decide_eq_true_eq]
  split
  · rw [hjob]
  · rfl

/-- **Along a run**: the rows of a job grow by one for each fire, every fire is later than
what the cursor was kept above, and the fires increase. -/
theorem fires_increase (hcron : Later cron) (jobId : Uuid) {events : List ScheduleEvent}
    (hrun : exec (scheduleStep cron) db events = some db') : (db'.listJobRuns jobId).length
        = (db.listJobRuns jobId).length + (fires cron jobId db events).length ∧
      (∀ v ∈ fires cron jobId db events, ∀ bound,
        (∀ job next, db.getJob jobId = some job → job.nextRunAt = some next → bound < next) →
        bound < v) ∧
      (fires cron jobId db events).Pairwise (· < ·) := by
  induction events generalizing db with
  | nil =>
    cases hrun
    exact ⟨rfl, nofun, .nil⟩
  | cons event events ih =>
    obtain ⟨db1, hstep, hrun⟩ := exec_cons hrun
    obtain ⟨hlength, hlater, hpairwise⟩ := ih hrun
    cases event with
    | tick now =>
      have hrow := oneRow_tick hcron hstep jobId
      have hfires : fires cron jobId db (.tick now :: events)
          = (db.dueAt jobId now).toList ++ fires cron jobId db1 events := by
        simp only [fires, hstep]
      rw [hfires]
      -- what fires later lies above this tick
      have habove : ∀ v ∈ fires cron jobId db1 events, now < v := fun v hv =>
        hlater v hv now hrow.cursor
      cases hdue : db.dueAt jobId now with
      | none =>
        rw [hrow.idle hdue] at hlength
        refine ⟨hlength, fun v hv bound hbound => ?_, hpairwise⟩
        refine hlater v hv bound fun job next hjob hnext => ?_
        -- the cursor is the old one
        obtain ⟨db2, _, htick, -, hkept⟩ := tick_spec cron now db
        have hdb : db2 = db1 := by
          simp only [scheduleStep, htick] at hstep
          injection hstep
        subst hdb
        have hk := hkept jobId fun job hjob => (not_due_of_dueAt hdue hjob).1
        rw [hk.job] at hjob
        exact hbound job next hjob hnext
      | some v0 =>
        obtain ⟨runId, status, hruns, -⟩ := hrow.due (by rw [hdue]; rfl)
        obtain ⟨job, hjob, -, hnext, hle⟩ := dueAt_eq_some hdue
        have hfirst : ∀ v ∈ fires cron jobId db1 events, v0 < v := fun v hv =>
          lt_of_le_of_lt hle (habove v hv)
        refine ⟨?_, ?_, ?_⟩
        · rw [hlength, hruns]
          simp only [List.length_cons, Option.toList_some, List.length_append, List.length_nil]
          omega
        · intro v hv bound hbound
          have hv0 : bound < v0 := hbound job v0 hjob hnext
          rcases List.mem_append.mp hv with hv | hv
          · rwa [List.mem_singleton.mp hv]
          · exact lt_trans hv0 (hfirst v hv)
        · exact List.pairwise_cons.mpr ⟨hfirst, hpairwise⟩
    | startJobRun runId attempt =>
      cases hstep
      -- a change of a run's row neither fires a job nor moves its cursor
      have hsame : ((db.startJobRun runId attempt).listJobRuns jobId).length
          = (db.listJobRuns jobId).length := length_listJobRuns_modifyRun _ fun _ => rfl
      rw [hsame] at hlength
      exact ⟨hlength, hlater, hpairwise⟩
    | updateJobRun runId status exitCode =>
      cases hstep
      have hsame : ((db.updateJobRun runId status exitCode).listJobRuns jobId).length
          = (db.listJobRuns jobId).length := length_listJobRuns_modifyRun _ fun _ => rfl
      rw [hsame] at hlength
      exact ⟨hlength, hlater, hpairwise⟩

theorem exec_scheduleStep (cron : Cron) (db : JobStore)
    (events : List ScheduleEvent) : ∃ db', exec (scheduleStep cron) db events = some db' := by
  induction events generalizing db with
  | nil => exact ⟨db, rfl⟩
  | cons event events ih =>
    obtain ⟨db1, hstep⟩ := scheduleStep_isSome cron db event
    obtain ⟨db', hrun⟩ := ih db1
    refine ⟨db', ?_⟩
    show (scheduleStep cron db event).bind _ = some db'
    rw [hstep]
    exact hrun

end

/-- **Every due fire yields one row.**  From any tables, along any ticks and whatever an
executor does between them: no tick fails, each owes every job its due, and the cursor
values at which a job fires, one row for each, increase. -/
theorem due_fire_yields_one_row (cron : Cron) (hcron : Later cron)
    (db : JobStore) (events : List ScheduleEvent) :
    ∃ db', exec (scheduleStep cron) db events = some db' ∧
      (∀ before now after u, events = before ++ .tick now :: after →
        exec (scheduleStep cron) db before = some u →
        ∃ u', scheduleStep cron u (.tick now) = some u' ∧ ∀ jobId, OneRow now jobId u u') ∧
      ∀ jobId, (db'.listJobRuns jobId).length
          = (db.listJobRuns jobId).length + (fires cron jobId db events).length ∧
        (fires cron jobId db events).Pairwise (· < ·) := by
  obtain ⟨db', hrun⟩ := exec_scheduleStep cron db events
  refine ⟨db', hrun, ?_, fun jobId => ?_⟩
  · intro before now after u _ _
    obtain ⟨u', hstep⟩ := scheduleStep_isSome cron u (.tick now)
    exact ⟨u', hstep, oneRow_tick hcron hstep⟩
  · obtain ⟨hlength, -, hpairwise⟩ := fires_increase hcron jobId hrun
    exact ⟨hlength, hpairwise⟩

/-- A job that is due at 5, and late by many periods. -/
def minutely : Job := ⟨0, some "0 * * * * *", 0, some 5, none⟩

theorem no_job_of_empty (id : Uuid) (job : Job)
    (h : (∅ : AList fun _ : Uuid => Job).lookup id = some job) : job.id = id := by
  cases h

/-- No jobs and no runs. -/
def emptyTables : JobStore where
  jobs := ∅
  runs := []
  nextId := 1
  jobs_id := no_job_of_empty
  run_id_lt := by nofun
  run_id_unique := List.nodup_nil

theorem due_fire_yields_one_row_late :
    ∃ db', exec (scheduleStep fun _ after => some ((after / 60 + 1) * 60))
        (emptyTables.writeJob minutely) [.tick 1000, .tick 1000, .tick 1030] = some db' ∧
      (db'.listJobRuns 0).length = 2 := by
  have hlater : Later fun _ after => some ((after / 60 + 1) * 60) := by
    intro schedule after next h
    injection h with h
    omega
  obtain ⟨db', hrun, -, hrows⟩ := due_fire_yields_one_row _ hlater
    (emptyTables.writeJob minutely) [.tick 1000, .tick 1000, .tick 1030]
  refine ⟨db', hrun, ?_⟩
  rw [(hrows 0).1]
  decide +kernel

/-! ## §4. A tick among processes. -/

/-- The next call of a tick, with nobody else about. -/
def AloneTick (cron : Cron) (a b : JobDesk × Tick) : Prop :=
  a.2.advance cron a.1 .ok = some b

section
variable {queue : List JobRun}

theorem alone_sends (db : JobStore) (queue runs created sent : List JobRun) :
    Relation.ReflTransGen (AloneTick cron) (⟨db, queue⟩, ⟨now, .sending runs, created, sent⟩)
      (⟨db, queue ++ runs⟩, ⟨now, .finished, created, sent ++ runs⟩) := by
  induction runs generalizing queue sent with
  | nil =>
    rw [List.append_nil, List.append_nil]
    exact .refl
  | cons run runs ih =>
    have hrest := ih (queue ++ [run]) (sent ++ [run])
    rw [List.append_assoc, List.append_assoc] at hrest
    exact .head rfl hrest

variable {enqueued sent : List JobRun}

/-- The last call for a job, when its row has been inserted. -/
theorem alone_setsNextRun {created : List JobRun} {run : Option JobRun}
    (h : db.setJobNextRun job.id (computeNextRun cron job now) (some now) = .ok db') :
    AloneTick cron (⟨db, queue⟩, ⟨now, .setJobNextRun job run due enqueued, created, sent⟩)
      (⟨db', queue⟩, ⟨now, .processing (enqueued ++ run.toList) due, created, sent⟩) := by
  simp only [AloneTick, Tick.advance, Tick.proceed, h, Tick.goTo]

theorem alone_fires {created : List JobRun} {run : Option JobRun}
    (h : fire cron now db job = .ok (db', run)) : Relation.ReflTransGen (AloneTick cron)
      (⟨db, queue⟩, ⟨now, .activeRun job due enqueued, created, sent⟩)
      (⟨db', queue⟩,
        ⟨now, .processing (enqueued ++ run.toList) due, created ++ run.toList, sent⟩) := by
  unfold fire at h
  cases hactive : db.activeRun job.id with
  | some =>
    have hcheck : AloneTick cron
        (⟨db, queue⟩, ⟨now, .activeRun job due enqueued, created, sent⟩)
        (⟨db, queue⟩, ⟨now, .createSkippedRun job due enqueued, created, sent⟩) := by
      simp only [AloneTick, Tick.advance, Tick.proceed, hactive, Tick.goTo]
    simp only [hactive] at h
    cases hset : (db.createSkippedRun job.id).1.setJobNextRun job.id
        (computeNextRun cron job now) (some now) with
    | error => cases hset ▸ h
    | ok =>
      cases hset ▸ h
      rw [Option.toList_none, List.append_nil created]
      exact .head hcheck (.head rfl (.single (alone_setsNextRun hset)))
  | none =>
    have hcheck : AloneTick cron
        (⟨db, queue⟩, ⟨now, .activeRun job due enqueued, created, sent⟩)
        (⟨db, queue⟩, ⟨now, .createJobRun job due enqueued, created, sent⟩) := by
      simp only [AloneTick, Tick.advance, Tick.proceed, hactive, Tick.goTo]
    simp only [hactive] at h
    cases hset : (db.createJobRun job.id).1.setJobNextRun job.id
        (computeNextRun cron job now) (some now) with
    | error => cases hset ▸ h
    | ok =>
      cases hset ▸ h
      exact .head hcheck (.head rfl (.single (alone_setsNextRun hset)))

theorem alone_fireAll {enqueued' : List JobRun}
    (h : fireAll cron now due enqueued db = .ok (db', enqueued')) :
    Relation.ReflTransGen (AloneTick cron)
      (⟨db, queue⟩, ⟨now, .processing enqueued due, enqueued, sent⟩)
      (⟨db', queue⟩, ⟨now, .sending enqueued', enqueued', sent⟩) := by
  induction due generalizing db enqueued with
  | nil =>
    cases h
    exact .refl
  | cons job due ih =>
    cases hfire : fire cron now db job with
    | error =>
      simp only [fireAll, hfire] at h
      cases h
    | ok =>
      simp only [fireAll, hfire] at h
      exact (alone_fires hfire).trans (ih h)

/-- **A tick that runs alone is `JobStore.tick`**, and puts into the channel what that
returns. -/
theorem tick_alone (h : db.tick cron now = .ok (db', enqueued)) :
    Relation.ReflTransGen (AloneTick cron) (⟨db, queue⟩, ⟨now, .claimDueJobs, [], []⟩)
      (⟨db', queue ++ enqueued⟩, ⟨now, .finished, enqueued, enqueued⟩) :=
  .head rfl ((alone_fireAll h).trans (alone_sends db' queue enqueued enqueued []))

end

theorem tick_alone_minutely :
    ∃ db' runs, Relation.ReflTransGen (AloneTick fun _ after => some (after + 60))
      (⟨emptyTables.writeJob minutely, []⟩, ⟨1000, .claimDueJobs, [], []⟩)
      (⟨db', runs⟩, ⟨1000, .finished, runs, runs⟩) := by
  let ticked := (emptyTables.writeJob minutely).tick (fun _ after => some (after + 60)) 1000
  have hok : ticked.toOption.isSome = true := by decide +kernel
  rcases h : ticked with _ | ⟨db', runs⟩ <;> rw [h] at hok
  · cases hok
  · exact ⟨db', runs, tick_alone h⟩

end Denia.Jobs
