/-
  Denia.Jobs.Scheduler — manual runs, scheduler ticks and the executor
  (`src/api/jobs.rs`, `src/scheduler.rs`), as processes over the job tables and the
  channel between them.

  Each repository call, each send and each receive is one step, and every one of them
  may fail.  A process CARRIES a run from its creation to the channel and from there to
  its last status; between the check for an active run and the insert it is in the
  WINDOW of the job.

  Main result: `advance_move` — all that one call can do to the tables, the channel, and
  what the process carries.
-/
import Denia.Deploy.Api
import Denia.Jobs.Store
import Denia.Lib.Interleave

namespace Denia.Jobs

open Lib
open Deploy (ApiError)

/-! ## §1. Calls. -/

/-- How a call ends.  `attempt` is how an attempt to run a job ends: with an exit code, or
without one if it could not be resolved or run. -/
inductive Reply where
  | ok
  | fails (reason : String)
  | attempt (exitCode : Option Int)
  deriving DecidableEq

/-- What the processes share: the tables, and the channel to the executor. -/
structure JobDesk where
  db : JobStore
  queue : List JobRun

/-! ## §2. `run_job`. -/

/-- The call a `run_job` request makes next. -/
inductive ManualPc where
  | getJob
  | activeRun
  | createJobRun
  | send (run : JobRun)
  | done (result : Except ApiError JobRun)

/-- A manual run and where it stands. -/
structure ManualRun where
  jobId : Uuid
  pc : ManualPc

namespace ManualRun

/-- On to another call. -/
def goTo (m : ManualRun) (pc : ManualPc) : ManualRun := { m with pc := pc }

/-- One call, with its reply. -/
def advance (s : JobDesk) (m : ManualRun) : Reply → Option (JobDesk × ManualRun)
  | .ok =>
      match m.pc with
      | .getJob =>
          match s.db.getJob m.jobId with
          | none => some (s, m.goTo (.done (.error (.notFound "job not found"))))
          | some _ => some (s, m.goTo .activeRun)
      | .activeRun =>
          match s.db.activeRun m.jobId with
          | some _ => some (s, m.goTo (.done (.error (.conflict "job already has an active run"))))
          | none => some (s, m.goTo .createJobRun)
      | .createJobRun =>
          some ({ s with db := (s.db.createJobRun m.jobId).1 },
            m.goTo (.send (s.db.createJobRun m.jobId).2))
      | .send run => some ({ s with queue := s.queue ++ [run] }, m.goTo (.done (.ok run)))
      | .done _ => none
  | .fails reason =>
      match m.pc with
      | .getJob | .activeRun | .createJobRun => some (s, m.goTo (.done (.error (.repo reason))))
      -- a closed channel is logged, and the request accepted all the same
      | .send run => some (s, m.goTo (.done (.ok run)))
      | .done _ => none
  | .attempt _ => none

end ManualRun

/-! ## §3. A tick and the loop around it. -/

/-- The cron library: the next fire time of a schedule after an instant. -/
abbrev Cron := String → Nat → Option Nat

/-- `compute_next_run`. -/
def computeNextRun (cron : Cron) (job : Job) (after : Nat) : Option Nat :=
  match job.schedule with
  | none => none
  | some schedule => cron schedule after

/-- The call a tick makes next, with the jobs still to come and the runs to hand over.
`send` is the loop that called `tick`. -/
inductive TickPc where
  | claimDueJobs
  | activeRun (job : Job) (due : List Job) (enqueued : List JobRun)
  | createSkippedRun (job : Job) (due : List Job) (enqueued : List JobRun)
  | createJobRun (job : Job) (due : List Job) (enqueued : List JobRun)
  | setJobNextRun (job : Job) (run : Option JobRun) (due : List Job) (enqueued : List JobRun)
  | send (run : JobRun) (runs : List JobRun)
  | finished
  | failed (error : RepoError)

/-- A tick; `created` and `sent` record what `create_job_run` has returned to it and what
it has put into the channel. -/
structure Tick where
  now : Nat
  pc : TickPc
  created : List JobRun
  sent : List JobRun

/-- The runs that are left to be sent. -/
def TickPc.sending : List JobRun → TickPc
  | [] => .finished
  | run :: runs => .send run runs

/-- The jobs that are left to be processed. -/
def TickPc.processing (enqueued : List JobRun) : List Job → TickPc
  | [] => .sending enqueued
  | job :: due => .activeRun job due enqueued

namespace Tick

/-- On to another call. -/
def goTo (t : Tick) (pc : TickPc) : Tick := { t with pc := pc }

/-- The next call, if it succeeds; `set_job_next_run` may still find no job. -/
def proceed (cron : Cron) (s : JobDesk) (t : Tick) : Option (JobDesk × Tick) :=
  match t.pc with
  | .claimDueJobs => some (s, t.goTo (.processing [] (s.db.claimDueJobs t.now)))
  | .activeRun job due enqueued =>
      match s.db.activeRun job.id with
      | some _ => some (s, t.goTo (.createSkippedRun job due enqueued))
      | none => some (s, t.goTo (.createJobRun job due enqueued))
  | .createSkippedRun job due enqueued =>
      some ({ s with db := (s.db.createSkippedRun job.id).1 },
        t.goTo (.setJobNextRun job none due enqueued))
  | .createJobRun job due enqueued =>
      some ({ s with db := (s.db.createJobRun job.id).1 },
        { t with
          pc := .setJobNextRun job (some (s.db.createJobRun job.id).2) due enqueued
          created := t.created ++ [(s.db.createJobRun job.id).2] })
  | .setJobNextRun job run due enqueued =>
      match s.db.setJobNextRun job.id (computeNextRun cron job t.now) (some t.now) with
      | .error e => some (s, t.goTo (.failed e))
      | .ok db => some ({ s with db := db }, t.goTo (.processing (enqueued ++ run.toList) due))
  | .send run runs =>
      some ({ s with queue := s.queue ++ [run] },
        { t with pc := .sending runs, sent := t.sent ++ [run] })
  | .finished | .failed _ => none

/-- The next call fails: the error of a repository call is the error of the tick, and the
loop logs it; a run that cannot be sent is logged and dropped. -/
def fail (t : Tick) (reason : String) : Option Tick :=
  match t.pc with
  | .claimDueJobs | .activeRun _ _ _ | .createSkippedRun _ _ _ | .createJobRun _ _ _
  | .setJobNextRun _ _ _ _ => some (t.goTo (.failed (.sqlite reason)))
  | .send _ runs => some (t.goTo (.sending runs))
  | .finished | .failed _ => none

/-- One call, with its reply. -/
def advance (cron : Cron) (s : JobDesk) (t : Tick) : Reply → Option (JobDesk × Tick)
  | .ok => t.proceed cron s
  | .fails reason => (t.fail reason).map fun t' => (s, t')
  | .attempt _ => none

end Tick

/-! ## §4. The executor. -/

/-- The call the executor makes next, with the run it has taken from the channel. -/
inductive ExecPc where
  | recv
  | getJob (run : JobRun)
  | abandon (run : JobRun)
  | startJobRun (run : JobRun) (job : Job) (attempt : Nat)
  | runAttempt (run : JobRun) (job : Job) (attempt : Nat)
  | succeed (run : JobRun) (exitCode : Int)
  | exhaust (run : JobRun) (lastExit : Option Int)

/-- `max_retries.saturating_add(1)`. -/
def Job.maxAttempts (job : Job) : Nat := min (job.maxRetries + 1) (2 ^ 32 - 1)

namespace ExecPc

/-- The next call, if it succeeds. -/
def proceed (s : JobDesk) : ExecPc → Option (JobDesk × ExecPc)
  | .recv =>
      match s.queue with
      | [] => none
      | run :: queue => some ({ s with queue := queue }, .getJob run)
  | .getJob run =>
      match s.db.getJob run.jobId with
      | none => some (s, .abandon run)
      | some job => some (s, .startJobRun run job 1)
  | .abandon run => some ({ s with db := s.db.updateJobRun run.id .failed none }, .recv)
  | .startJobRun run job attempt =>
      some ({ s with db := s.db.startJobRun run.id attempt }, .runAttempt run job attempt)
  | .runAttempt _ _ _ => none
  | .succeed run exitCode =>
      some ({ s with db := s.db.updateJobRun run.id .succeeded (some exitCode) }, .recv)
  | .exhaust run lastExit =>
      some ({ s with db := s.db.updateJobRun run.id .failed lastExit }, .recv)

/-- The next call fails; whatever the executor cannot write it lets be. -/
def fail : ExecPc → Option ExecPc
  | .recv | .runAttempt _ _ _ => none
  | .getJob run => some (.abandon run)
  | .startJobRun run job attempt => some (.runAttempt run job attempt)
  | .abandon _ | .succeed _ _ | .exhaust _ _ => some .recv

/-- `run_attempt` comes back. -/
def attempted (exitCode : Option Int) : ExecPc → Option ExecPc
  | .runAttempt run job attempt =>
      if exitCode = some 0 then some (.succeed run 0)
      else if attempt < job.maxAttempts then some (.startJobRun run job (attempt + 1))
      else some (.exhaust run exitCode)
  | _ => none

/-- One call, with its reply. -/
def advance (s : JobDesk) (x : ExecPc) : Reply → Option (JobDesk × ExecPc)
  | .ok => x.proceed s
  | .fails _ => x.fail.map fun x' => (s, x')
  | .attempt exitCode => (x.attempted exitCode).map fun x' => (s, x')

end ExecPc

/-! ## §5. All of them. -/

/-- The processes. -/
inductive JobProc where
  | manual (m : ManualRun)
  | tick (t : Tick)
  | executor (x : ExecPc)

/-- What starts a process. -/
inductive JobRequest where
  | runJob (jobId : Uuid)
  | tick (now : Nat)
  | executor

/-- What others do to the jobs. -/
inductive JobChange where
  | putJob (job : Job)
  | deleteJob (jobId : Uuid)

/-- Where it starts. -/
def JobProc.start : JobRequest → JobProc
  | .runJob jobId => .manual ⟨jobId, .getJob⟩
  | .tick now => .tick ⟨now, .claimDueJobs, [], []⟩
  | .executor => .executor .recv

/-- One call. -/
def JobProc.advance (cron : Cron) (s : JobDesk) (p : JobProc) (reply : Reply) :
    Option (JobDesk × JobProc) :=
  match p with
  | .manual m => (m.advance s reply).map fun (s', m') => (s', .manual m')
  | .tick t => (t.advance cron s reply).map fun (s', t') => (s', .tick t')
  | .executor x => (x.advance s reply).map fun (s', x') => (s', .executor x')

/-- What is left. -/
def JobChange.apply (s : JobDesk) : JobChange → Option JobDesk
  | .putJob job => (s.db.putJob job).map fun db => { s with db := db }
  | .deleteJob jobId => some { s with db := s.db.deleteJob jobId }

/-- Any number of requests and ticks, and of executors: the daemon starts one. -/
def jobProgram (cron : Cron) : Program JobDesk JobProc JobRequest Reply JobChange where
  start := JobProc.start
  advance s p := p.advance cron s
  outer := JobChange.apply

/-- What boot leaves: no run active, and an empty channel. -/
def JobDesk.boot (db : JobStore) : JobDesk := ⟨db.failOrphanRuns, []⟩

/-! ## §6. What a call does. -/

/-- The runs a tick has created and not handed over yet. -/
def TickPc.carried : TickPc → List JobRun
  | .claimDueJobs | .finished | .failed _ => []
  | .activeRun _ _ enqueued | .createSkippedRun _ _ enqueued
  | .createJobRun _ _ enqueued => enqueued
  | .setJobNextRun _ run _ enqueued => enqueued ++ run.toList
  | .send run runs => run :: runs

@[simp] theorem TickPc.carried_sending (runs : List JobRun) : (sending runs).carried = runs := by
  cases runs <;> rfl

@[simp] theorem TickPc.carried_processing (enqueued : List JobRun) (due : List Job) :
    (processing enqueued due).carried = enqueued := by
  cases due with
  | nil => exact carried_sending enqueued
  | cons => rfl

namespace JobProc

/-- The runs in the hands of a process. -/
def carried : JobProc → List JobRun
  | .manual ⟨_, .send run⟩ => [run]
  | .manual _ => []
  | .tick t => t.pc.carried
  | .executor .recv => []
  | .executor (.getJob run) | .executor (.abandon run) | .executor (.startJobRun run _ _)
  | .executor (.runAttempt run _ _) | .executor (.succeed run _) | .executor (.exhaust run _) =>
      [run]

/-- The job whose active run is looked for next. -/
def checks : JobProc → Option Uuid
  | .manual ⟨jobId, .activeRun⟩ => some jobId
  | .tick ⟨_, .activeRun job _ _, _, _⟩ => some job.id
  | _ => none

/-- The job that was found without an active run, and is about to get one. -/
def window : JobProc → Option Uuid
  | .manual ⟨jobId, .createJobRun⟩ => some jobId
  | .tick ⟨_, .createJobRun job _ _, _, _⟩ => some job.id
  | _ => none

end JobProc

theorem window_sending (now : Nat) (runs created sent : List JobRun) :
    JobProc.window (.tick ⟨now, .sending runs, created, sent⟩) = none := by
  cases runs <;> rfl

theorem window_processing (now : Nat) (enqueued : List JobRun) (due : List Job)
    (created sent : List JobRun) :
    JobProc.window (.tick ⟨now, .processing enqueued due, created, sent⟩) = none := by
  cases due with
  | nil => exact window_sending now enqueued created sent
  | cons => rfl

/-- One call of a process, as far as runs are concerned. -/
inductive JobMove (s : JobDesk) (p : JobProc) : JobDesk → JobProc → Prop
  | quiet {s' p'} (hruns : s'.db.runs = s.db.runs) (hnext : s'.db.nextId = s.db.nextId)
      (hqueue : s'.queue = s.queue) (hcarried : p'.carried.Sublist p.carried)
      (hwindow' : p'.window = none) : JobMove s p s' p'
  | check {p'} (j : Uuid) (hchecks : p.checks = some j) (hnone : s.db.activeRun j = none)
      (hcarried : p'.carried = p.carried) (hwindow' : p'.window = some j) : JobMove s p s p'
  | create {p'} (j : Uuid) (hwindow : p.window = some j)
      (hcarried : p'.carried = p.carried ++ [(s.db.createJobRun j).2])
      (hwindow' : p'.window = none) :
      JobMove s p { s with db := (s.db.createJobRun j).1 } p'
  | skip {p'} (j : Uuid) (hcarried : p'.carried = p.carried) (hwindow' : p'.window = none) :
      JobMove s p { s with db := (s.db.createSkippedRun j).1 } p'
  | enqueue {p'} (run : JobRun) (hcarried : p.carried = run :: p'.carried)
      (hwindow' : p'.window = none) : JobMove s p { s with queue := s.queue ++ [run] } p'
  | dequeue {p'} (run : JobRun) (queue : List JobRun) (hqueue : s.queue = run :: queue)
      (hcarried : p'.carried = [run]) (hwindow' : p'.window = none) :
      JobMove s p { s with queue := queue } p'
  | update {p'} (run : JobRun) (f : JobRun → JobRun) (hf : ∀ r, (f r).id = r.id)
      (hjob : ∀ r, (f r).jobId = r.jobId) (hcarried : p.carried = [run])
      (hafter : p'.carried = [run] ∧ (∀ r, (f r).status.active = true) ∨
        p'.carried = [] ∧ ∀ r, (f r).status.active = false)
      (hwindow' : p'.window = none) : JobMove s p { s with db := s.db.modifyRun run.id f hf } p'

variable {s s' : JobDesk} {reply : Reply} {cron : Cron} {p p' : JobProc}

theorem manualAdvance_move {m m' : ManualRun} (h : m.advance s reply = some (s', m')) :
    JobMove s (.manual m) s' (.manual m') := by
  obtain ⟨jobId, pc⟩ := m
  unfold ManualRun.advance at h
  cases reply with
  | ok =>
    cases pc with
    | getJob =>
      simp only at h
      split at h <;> (cases h; exact .quiet rfl rfl rfl (List.Sublist.refl _) rfl)
    | activeRun =>
      simp only at h
      split at h
      next => cases h; exact .quiet rfl rfl rfl (List.Sublist.refl _) rfl
      next hnone => cases h; exact .check jobId rfl hnone rfl rfl
    | createJobRun => cases h; exact .create jobId rfl rfl rfl
    | send run => cases h; exact .enqueue run rfl rfl
    | done => cases h
  | fails =>
    cases pc with
    | getJob | activeRun | createJobRun =>
      cases h
      exact .quiet rfl rfl rfl (List.Sublist.refl _) rfl
    | send => cases h; exact .quiet rfl rfl rfl (List.nil_sublist _) rfl
    | done => cases h
  | attempt => cases h

theorem setJobNextRun_ok {db db' : JobStore} {jobId : Uuid} {next last : Option Nat}
    (h : db.setJobNextRun jobId next last = .ok db') :
    (db.getJob jobId).isSome ∧ db'.runs = db.runs ∧ db'.nextId = db.nextId := by
  unfold JobStore.setJobNextRun at h
  cases hjob : db.getJob jobId with
  | none =>
    simp [hjob] at h
  | some =>
    rw [hjob] at h
    cases h
    exact ⟨rfl, rfl, rfl⟩

theorem tickAdvance_move {t t' : Tick} (h : t.advance cron s reply = some (s', t')) :
    JobMove s (.tick t) s' (.tick t') := by
  obtain ⟨now, pc, created, sent⟩ := t
  unfold Tick.advance at h
  cases reply with
  | ok =>
    unfold Tick.proceed at h
    cases pc with
    | claimDueJobs =>
      cases h
      refine .quiet rfl rfl rfl ?_ (window_processing ..)
      show (TickPc.processing [] _).carried.Sublist []
      rw [TickPc.carried_processing]
    | activeRun job =>
      simp only at h
      split at h
      next => cases h; exact .quiet rfl rfl rfl (List.Sublist.refl _) rfl
      next hnone => cases h; exact .check job.id rfl hnone rfl rfl
    | createSkippedRun job due enqueued =>
      cases h
      exact .skip job.id (List.append_nil enqueued) rfl
    | createJobRun job => cases h; exact .create job.id rfl rfl rfl
    | setJobNextRun job run due enqueued =>
      simp only at h
      split at h
      next => cases h; exact .quiet rfl rfl rfl (List.nil_sublist _) rfl
      next db hset =>
        cases h
        obtain ⟨-, hruns, hnext⟩ := setJobNextRun_ok hset
        refine .quiet hruns hnext rfl ?_ (window_processing ..)
        show (TickPc.processing _ due).carried.Sublist (enqueued ++ run.toList)
        rw [TickPc.carried_processing]
    | send run runs =>
      cases h
      refine .enqueue run ?_ (window_sending ..)
      show run :: runs = run :: (TickPc.sending runs).carried
      rw [TickPc.carried_sending]
    | finished | failed e => cases h
  | fails =>
    obtain ⟨t1, hfail, heq⟩ := Option.map_eq_some_iff.mp h
    cases heq
    cases pc with
    | claimDueJobs | activeRun job due enqueued | createSkippedRun job due enqueued
    | createJobRun job due enqueued | setJobNextRun job run due enqueued =>
      cases hfail
      exact .quiet rfl rfl rfl (List.nil_sublist _) rfl
    | send run runs =>
      cases hfail
      refine .quiet rfl rfl rfl ?_ (window_sending ..)
      show (TickPc.sending runs).carried.Sublist (run :: runs)
      rw [TickPc.carried_sending]
      exact List.sublist_cons_self run runs
    | finished | failed e => cases hfail
  | attempt => cases h

theorem execAdvance_move {x x' : ExecPc} (h : x.advance s reply = some (s', x')) :
    JobMove s (.executor x) s' (.executor x') := by
  cases reply with
  | ok =>
    cases x with
    | recv =>
      change (match s.queue with | [] => none | _ :: _ => _) = _ at h
      split at h
      next => cases h
      next run queue hqueue => cases h; exact .dequeue run queue hqueue rfl rfl
    | getJob run =>
      change (match s.db.getJob run.jobId with | none => _ | some _ => _) = _ at h
      split at h <;> (cases h; exact .quiet rfl rfl rfl (List.Sublist.refl _) rfl)
    | abandon run | succeed run exitCode | exhaust run lastExit =>
      cases h
      exact .update run _ _ (fun _ => rfl) rfl (.inr ⟨rfl, fun _ => rfl⟩) rfl
    | startJobRun run =>
      cases h
      exact .update run _ _ (fun _ => rfl) rfl (.inl ⟨rfl, fun _ => rfl⟩) rfl
    | runAttempt => cases h
  | fails =>
    obtain ⟨x1, hfail, heq⟩ := Option.map_eq_some_iff.mp h
    cases heq
    cases x with
    | recv | runAttempt run job attempt => cases hfail
    | getJob run | startJobRun run job attempt =>
      cases hfail
      exact .quiet rfl rfl rfl (List.Sublist.refl _) rfl
    | abandon run | succeed run exitCode | exhaust run lastExit =>
      cases hfail
      exact .quiet rfl rfl rfl (List.nil_sublist _) rfl
  | attempt =>
    obtain ⟨x1, hattempted, heq⟩ := Option.map_eq_some_iff.mp h
    cases heq
    unfold ExecPc.attempted at hattempted
    split at hattempted
    next run job attempt =>
      -- the run stays in hand, whatever comes of the attempt
      split at hattempted
      · cases hattempted
        exact .quiet rfl rfl rfl (List.Sublist.refl _) rfl
      split at hattempted <;>
        (cases hattempted; exact .quiet rfl rfl rfl (List.Sublist.refl _) rfl)
    next => cases hattempted

/-- **What one call does.** -/
theorem advance_move (h : p.advance cron s reply = some (s', p')) : JobMove s p s' p' := by
  cases p with
  | manual =>
    obtain ⟨⟨s1, m1⟩, hm, heq⟩ := Option.map_eq_some_iff.mp h
    cases heq
    exact manualAdvance_move hm
  | tick =>
    obtain ⟨⟨s1, t1⟩, ht, heq⟩ := Option.map_eq_some_iff.mp h
    cases heq
    exact tickAdvance_move ht
  | executor =>
    obtain ⟨⟨s1, x1⟩, hx, heq⟩ := Option.map_eq_some_iff.mp h
    cases heq
    exact execAdvance_move hx

/-- Ids are given out once. -/
theorem JobMove.nextId_le (h : JobMove s p s' p') : s.db.nextId ≤ s'.db.nextId := by
  cases h with
  | quiet hruns hnext => exact Nat.le_of_eq hnext.symm
  | check | enqueue | dequeue | update => exact Nat.le_refl _
  | create | skip => exact Nat.le_succ _

theorem outer_nextId {e : JobChange} (h : e.apply s = some s') : s'.db.nextId = s.db.nextId := by
  cases e with
  | putJob =>
    obtain ⟨db, hput, rfl⟩ := Option.map_eq_some_iff.mp h
    unfold JobStore.putJob at hput
    split at hput
    next => cases hput
    next => cases hput; rfl
  | deleteJob =>
    cases h
    rfl

end Denia.Jobs
