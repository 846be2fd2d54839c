/-
  Denia.Jobs.Handover — does a tick hand over the runs it creates?

  `tick` returns its runs only from the END of the loop over the due jobs, and the loop
  around it logs an error and goes on.  A failure on the way takes the runs created so far
  with it: their rows stay Pending, nobody executes them, and every later fire of their
  job is skipped.

  Main results: `TickMove.clean` and `TickMove.lossy_of_fails`, a call that succeeds and
  one that fails; `tick_hands_created_iff`; `failed_tick_strands_run`.
-/
import Denia.Jobs.Scheduler

namespace Denia.Jobs

open Lib

/-! ## §1. One call of a tick. -/

/-- The call succeeds: the repository or the channel does not fail, and a job whose next
fire is written is there. -/
def Tick.callSucceeds (s : JobDesk) (t : Tick) (reply : Reply) : Bool :=
  decide (reply = .ok) && match t.pc with
    | .setJobNextRun job _ _ _ => (s.db.getJob job.id).isSome
    | _ => true

/-- Still in `tick`, before the loop around it sends. -/
def TickPc.inTick : TickPc → Bool
  | .send _ _ | .finished => false
  | _ => true

/-- The tick has ended. -/
def TickPc.ended : TickPc → Bool
  | .finished | .failed _ => true
  | _ => false

theorem TickPc.carried_of_ended {pc : TickPc} (h : pc.ended = true) : pc.carried = [] := by
  cases pc <;> first | rfl | cases h

/-- Nothing is lost: what was created is handed over or in hand. -/
structure Clean (t : Tick) : Prop where
  whole : t.created = t.sent ++ t.pc.carried
  unsent : t.pc.inTick = true → t.sent = []

/-- Something is lost. -/
def Lossy (t : Tick) : Prop := t.sent.length + t.pc.carried.length < t.created.length

variable {t : Tick}

variable {cron : Cron} {s s' : JobDesk} {t' : Tick} {reply : Reply}
  {succeeds : Bool}

/-- What a call does to the runs of a tick. -/
inductive TickMove (s s' : JobDesk) (t t' : Tick) : Bool → Prop
  | goes (hcreated : t'.created = t.created) (hsent : t'.sent = t.sent)
      (hcarried : t'.pc.carried = t.pc.carried) (hin : t'.pc.inTick = true → t.pc.inTick = true) :
      TickMove s s' t t' true
  | creates (run : JobRun) (hid : run.id = s.db.nextId) (hnext : s'.db.nextId = s.db.nextId + 1)
      (hcreated : t'.created = t.created ++ [run]) (hsent : t'.sent = t.sent)
      (hcarried : t'.pc.carried = t.pc.carried ++ [run]) (hin : t.pc.inTick = true) :
      TickMove s s' t t' true
  | sends (run : JobRun) (hcreated : t'.created = t.created) (hsent : t'.sent = t.sent ++ [run])
      (hcarried : t.pc.carried = run :: t'.pc.carried) (hout : t'.pc.inTick = false) :
      TickMove s s' t t' true
  | aborts (hcreated : t'.created = t.created) (hsent : t'.sent = t.sent)
      (hcarried : t'.pc.carried = []) (hin : t.pc.inTick = true) : TickMove s s' t t' false
  | drops (run : JobRun) (hcreated : t'.created = t.created) (hsent : t'.sent = t.sent)
      (hcarried : t.pc.carried = run :: t'.pc.carried) (hout : t'.pc.inTick = false) :
      TickMove s s' t t' false

theorem setJobNextRun_error {db : JobStore} {jobId : Uuid} {next last : Option Nat} {e : RepoError}
    (h : db.setJobNextRun jobId next last = .error e) : (db.getJob jobId).isSome = false := by
  unfold JobStore.setJobNextRun at h
  cases hjob : db.getJob jobId with
  | none => rfl
  | some =>
    simp [hjob] at h

theorem inTick_sending (runs : List JobRun) : (TickPc.sending runs).inTick = false := by
  cases runs <;> rfl

theorem tickProceed_runs (h : t.proceed cron s = some (s', t')) :
    TickMove s s' t t' (t.callSucceeds s .ok) := by
  obtain ⟨now, pc, created, sent⟩ := t
  unfold Tick.proceed at h
  cases pc with
  | claimDueJobs =>
    cases h
    exact .goes rfl rfl (TickPc.carried_processing ..) fun _ => rfl
  | activeRun =>
    simp only at h
    split at h <;> (cases h; exact .goes rfl rfl rfl fun _ => rfl)
  | createSkippedRun job due enqueued =>
    cases h
    exact .goes rfl rfl (List.append_nil enqueued) fun _ => rfl
  | createJobRun =>
    cases h
    exact .creates _ rfl rfl rfl rfl rfl rfl
  | setJobNextRun job run due enqueued =>
    simp only at h
    split at h
    next e hset =>
      -- the job is gone: this call did not succeed
      cases h
      have hcall : Tick.callSucceeds s ⟨now, .setJobNextRun job run due enqueued, created, sent⟩
          .ok = false := by
        simp [Tick.callSucceeds, setJobNextRun_error hset]
      rw [hcall]
      exact .aborts rfl rfl rfl rfl
    next db hset =>
      cases h
      have hcall : Tick.callSucceeds s ⟨now, .setJobNextRun job run due enqueued, created, sent⟩
          .ok = true := by
        simp [Tick.callSucceeds, (setJobNextRun_ok hset).1]
      rw [hcall]
      exact .goes rfl rfl (TickPc.carried_processing ..) fun _ => rfl
  | send run runs =>
    cases h
    refine .sends run rfl rfl ?_ (inTick_sending runs)
    show run :: runs = run :: (TickPc.sending runs).carried
    rw [TickPc.carried_sending]
  | finished | failed e => cases h

theorem tickFail_runs {reason : String} (h : t.fail reason = some t') :
    TickMove s s t t' false := by
  obtain ⟨now, pc, created, sent⟩ := t
  cases pc with
  | claimDueJobs | activeRun job due enqueued | createSkippedRun job due enqueued
  | createJobRun job due enqueued | setJobNextRun job run due enqueued =>
    cases h
    exact .aborts rfl rfl rfl rfl
  | send run runs =>
    cases h
    refine .drops run rfl rfl ?_ (inTick_sending runs)
    show run :: runs = run :: (TickPc.sending runs).carried
    rw [TickPc.carried_sending]
  | finished | failed e => cases h

/-- **What a call of a tick does to its runs.** -/
theorem tickAdvance_runs (h : t.advance cron s reply = some (s', t')) :
    TickMove s s' t t' (t.callSucceeds s reply) := by
  cases reply with
  | ok => exact tickProceed_runs h
  | fails =>
    obtain ⟨t1, hfail, heq⟩ := Option.map_eq_some_iff.mp h
    cases heq
    exact tickFail_runs hfail
  | attempt => cases h

/-- A call that succeeds loses nothing, and with nothing created there is nothing to
lose. -/
theorem TickMove.clean (h : TickMove s s' t t' succeeds) (ht : Clean t)
    (hok : t.created ≠ [] → succeeds = true) : Clean t' := by
  cases h with
  | goes hcreated hsent hcarried hin =>
    refine ⟨?_, fun h => hsent.trans (ht.unsent (hin h))⟩
    rw [hcreated, hsent, hcarried]
    exact ht.whole
  | creates run _ _ hcreated hsent hcarried hin =>
    refine ⟨?_, fun _ => hsent.trans (ht.unsent hin)⟩
    rw [hcreated, hsent, hcarried, ht.whole, List.append_assoc]
  | sends run hcreated hsent hcarried hout =>
    refine ⟨?_, fun h => absurd (hout.symm.trans h) (by simp)⟩
    rw [hcreated, hsent, ht.whole, hcarried, List.append_assoc]
    rfl
  | aborts hcreated hsent hcarried hin =>
    have hnone : t.created = [] := by
      by_contra hne
      cases hok hne
    refine ⟨?_, fun _ => hsent.trans (ht.unsent hin)⟩
    rw [hcreated, hsent, hcarried, hnone, ht.unsent hin]
    rfl
  | drops run hcreated hsent hcarried =>
    -- a run to drop is a run created
    have hne : t.created ≠ [] := by
      rw [ht.whole, hcarried]
      simp
    cases hok hne

/-- What is lost does not come back. -/
theorem TickMove.lossy (h : TickMove s s' t t' succeeds) (ht : Lossy t) : Lossy t' := by
  unfold Lossy at *
  cases h with
  | goes hcreated hsent hcarried =>
    rwa [hcreated, hsent, hcarried]
  | creates run _ _ hcreated hsent hcarried =>
    rw [hcreated, hsent, hcarried, List.length_append, List.length_append]
    omega
  | sends run hcreated hsent hcarried =>
    rw [hcarried, List.length_cons] at ht
    rw [hcreated, hsent, List.length_append, List.length_singleton]
    omega
  | aborts hcreated hsent hcarried =>
    rw [hcreated, hsent, hcarried, List.length_nil]
    omega
  | drops run hcreated hsent hcarried =>
    rw [hcarried, List.length_cons] at ht
    rw [hcreated, hsent]
    omega

/-- **A call that fails loses a run**, if there is one. -/
theorem TickMove.lossy_of_fails (h : TickMove s s' t t' false) (ht : Clean t)
    (hne : t.created ≠ []) : Lossy t' := by
  have hpos : 0 < t.created.length := List.length_pos_of_ne_nil hne
  unfold Lossy
  cases h with
  | aborts hcreated hsent hcarried hin =>
    -- nothing was sent yet
    rwa [hcreated, hsent, hcarried, ht.unsent hin, List.length_nil]
  | drops run hcreated hsent hcarried =>
    rw [hcreated, hsent, ht.whole, hcarried, List.length_append, List.length_cons]
    omega

/-! ## §2. A tick among all the others. -/

/-- If process `i` is a tick that has created a run, its call succeeds. -/
def spares (i : Nat) (σ : System JobDesk JobProc) : Event JobRequest Reply JobChange → Bool
  | .move j reply =>
      if j = i then
        match σ.procs[i]? with
        | some (.tick t) => t.created.isEmpty || t.callSucceeds σ.shared reply
        | _ => true
      else true
  | _ => true

/-- The tick has lost nothing. -/
def CleanAt (i : Nat) (σ : System JobDesk JobProc) : Prop :=
  ∀ t, σ.procs[i]? = some (.tick t) → Clean t

/-- The tick has left runs behind. -/
def LossyAt (i : Nat) (σ : System JobDesk JobProc) : Prop :=
  ∃ t, σ.procs[i]? = some (.tick t) ∧ Lossy t

variable {σ : System JobDesk JobProc} {p : JobProc}

section
variable {i : Nat} {σ' : System JobDesk JobProc} {event : Event JobRequest Reply JobChange}

theorem start_clean {r : JobRequest} (h : JobProc.tick t = JobProc.start r) : Clean t := by
  cases r with
  | runJob | executor => cases h
  | tick =>
    cases h
    exact ⟨rfl, fun _ => rfl⟩

theorem tickProc_advance (h : p.advance cron s reply = some (s', .tick t')) :
    ∃ t, p = .tick t ∧ t.advance cron s reply = some (s', t') := by
  cases p with
  | tick t =>
    obtain ⟨⟨s1, t1⟩, ht, heq⟩ := Option.map_eq_some_iff.mp h
    cases heq
    exact ⟨t, rfl, ht⟩
  | manual =>
    obtain ⟨⟨s1, m1⟩, -, heq⟩ := Option.map_eq_some_iff.mp h
    cases heq
  | executor =>
    obtain ⟨⟨s1, x1⟩, -, heq⟩ := Option.map_eq_some_iff.mp h
    cases heq

theorem cleanAt_step (hσ : CleanAt i σ) (hspares : spares i σ event = true)
    (h : (jobProgram cron).step σ event = some σ') : CleanAt i σ' := by
  intro t' ht'
  rcases Program.step_proc h ht' with ⟨-, ht⟩ | ⟨r, -, hr⟩ | ⟨p, reply, s', rfl, hp, hadvance⟩
  · exact hσ t' ht
  · exact start_clean hr
  · obtain ⟨t, rfl, htick⟩ := tickProc_advance hadvance
    refine (tickAdvance_runs htick).clean (hσ t hp) fun hne => ?_
    simpa [spares, hp, hne] using hspares

theorem lossyAt_step (hσ : LossyAt i σ) (h : (jobProgram cron).step σ event = some σ') :
    LossyAt i σ' := by
  obtain ⟨t, ht, hlossy⟩ := hσ
  rcases Program.step_proc_next h ht with ⟨-, ht'⟩ | ⟨reply, s', p', -, hp', hadvance⟩
  · exact ⟨t, ht', hlossy⟩
  · obtain ⟨⟨s1, t1⟩, htick, heq⟩ := Option.map_eq_some_iff.mp hadvance
    cases heq
    exact ⟨t1, hp', (tickAdvance_runs htick).lossy hlossy⟩

theorem lossyAt_of_fails (hσ : CleanAt i σ) (hfails : ¬ spares i σ event = true)
    (h : (jobProgram cron).step σ event = some σ') : LossyAt i σ' := by
  unfold spares at hfails
  split at hfails
  swap
  · exact absurd rfl hfails
  next j reply =>
  split at hfails
  swap
  · exact absurd rfl hfails
  next hj =>
  subst hj
  split at hfails
  swap
  · exact absurd rfl hfails
  next t ht =>
  rcases Program.step_proc_next h ht with ⟨hnot, -⟩ | ⟨reply', s', p', heq, hp', hadvance⟩
  · exact absurd rfl (hnot reply)
  · injection heq with _ heq
    subst heq
    obtain ⟨⟨s1, t1⟩, htick, heq⟩ := Option.map_eq_some_iff.mp hadvance
    cases heq
    simp only [Bool.or_eq_true, List.isEmpty_iff, not_or, Bool.not_eq_true] at hfails
    have hmove := tickAdvance_runs htick
    rw [hfails.2] at hmove
    exact ⟨t1, hp', hmove.lossy_of_fails (hσ t ht) hfails.1⟩

end

/-! ## §3. The runs of a tick are different ones. -/

/-- The runs a tick has created have ids of their own. -/
def Distinct (s : JobDesk) : JobProc → Prop
  | .tick t => (∀ run ∈ t.created, run.id < s.db.nextId) ∧ t.created.Nodup
  | _ => True

theorem Distinct.mono (h : Distinct s p) (hle : s.db.nextId ≤ s'.db.nextId) : Distinct s' p := by
  cases p with
  | tick => exact ⟨fun run hrun => Nat.lt_of_lt_of_le (h.1 run hrun) hle, h.2⟩
  | manual | executor => trivial

theorem distinct_keeps (cron : Cron) :
    (jobProgram cron).Keeps (fun _ _ => True) (fun _ => True) Distinct (fun _ _ => True) where
  symm _ _ _ := trivial
  start_each s r _ := by
    cases r with
    | runJob | executor => trivial
    | tick => exact ⟨nofun, List.nodup_nil⟩
  start_apart _ _ := trivial
  outer σ e s' _ _ h :=
    ⟨trivial, fun q hq => hq.mono (Nat.le_of_eq (outer_nextId h).symm)⟩
  move σ i p reply s' p' hσ _ hp h := by
    have hle := (advance_move h).nextId_le
    refine ⟨trivial, ?_, fun j q _ hq => ⟨(hσ.each j q hq).mono hle, trivial⟩⟩
    cases p' with
    | manual | executor => trivial
    | tick t' =>
      obtain ⟨t, rfl, htick⟩ := tickProc_advance h
      have ht : Distinct σ.shared (.tick t) := hσ.each i _ hp
      have hold : Distinct s' (.tick t) := ht.mono hle
      have hmove := tickAdvance_runs htick
      generalize t.callSucceeds σ.shared reply = succeeds at hmove
      cases hmove with
      | creates run hid hnext hcreated =>
        refine ⟨?_, ?_⟩
        · rw [hcreated]
          intro r hr
          rcases List.mem_append.mp hr with hr | hr
          · exact hold.1 r hr
          · rw [List.mem_singleton.mp hr, hid, hnext]
            exact Nat.lt_succ_self _
        · -- the new id is above all the old ones
          rw [hcreated, List.nodup_append]
          refine ⟨ht.2, List.nodup_singleton run, ?_⟩
          intro r hr r' hr' heq
          rw [heq, List.mem_singleton.mp hr'] at hr
          exact absurd hid (Nat.ne_of_lt (ht.1 run hr))
      | goes hcreated | sends _ hcreated | aborts hcreated | drops _ hcreated =>
        show (∀ run ∈ t'.created, _) ∧ t'.created.Nodup
        rwa [hcreated]

/-! ## §4. The result. -/

/-- **Every run a tick creates is handed over, exactly if none of its calls fails once it
has created one**: in every run of the system, for every tick that has come to its end. -/
theorem tick_hands_created_iff {cron : Cron} {db : JobStore}
    {events : List (Event JobRequest Reply JobChange)} {σ : System JobDesk JobProc} {i : Nat}
    {t : Tick} (h : exec (jobProgram cron).step ⟨.boot db, []⟩ events = some σ)
    (ht : σ.procs[i]? = some (.tick t)) (hended : t.pc.ended = true) :
    (∀ run ∈ t.created, run ∈ t.sent) ↔
      Guarded (jobProgram cron).step (fun σ event => spares i σ event = true) ⟨.boot db, []⟩
        events := by
  have hstart : CleanAt i ⟨.boot db, []⟩ := by
    intro t ht
    cases ht
  have hcarried := TickPc.carried_of_ended hended
  constructor
  · intro hhanded
    have hdistinct : Distinct σ.shared (.tick t) :=
      (exec_invariant_all _ (fun _ _ _ hσ hs => (distinct_keeps cron).step hσ trivial hs)
        (System.Holds.start trivial) h).each i _ ht
    rcases guarded_or_exec (fun _ _ _ => cleanAt_step) (fun _ _ _ => lossyAt_of_fails)
      (fun _ _ _ => lossyAt_step) hstart h with hguarded | ⟨t1, ht1, hlossy⟩
    · exact hguarded
    · -- different runs that were all sent are no more than those that were sent
      cases ht.symm.trans ht1
      have hle : t.created.length ≤ t.sent.length :=
        (List.subperm_of_subset hdistinct.2 hhanded).length_le
      unfold Lossy at hlossy
      rw [hcarried, List.length_nil] at hlossy
      omega
  · intro hguarded
    have hclean := exec_invariant (CleanAt i) (fun _ _ _ => cleanAt_step) hstart hguarded h t ht
    intro run hrun
    rwa [hclean.whole, hcarried, List.append_nil] at hrun

/-! ## §5. Two due jobs. -/

/-- Due at 90. -/
def nightly : Job := ⟨1, some "0 0 3 * * *", 0, some 90, none⟩

/-- Due at 95. -/
def hourly : Job := ⟨2, some "0 0 * * * *", 0, some 95, none⟩

/-- No job is stored. -/
def noJobs : JobStore where
  jobs := ∅
  runs := []
  nextId := 10
  jobs_id := by intro id job h; cases h
  run_id_lt := by intro run h; cases h
  run_id_unique := List.nodup_nil

/-- Both are stored. -/
def dueJobs : JobStore := (noJobs.writeJob hourly).writeJob nightly

/-- A schedule that fires a minute later. -/
def everyMinute (_ : String) (now : Nat) : Option Nat := some (now + 60)

/-- The tick claims both jobs and goes through the first; the second one's run is created. -/
def firstJobDone : List (Event JobRequest Reply JobChange) :=
  [.spawn (.tick 100), .move 0 .ok, .move 0 .ok, .move 0 .ok, .move 0 .ok, .move 0 .ok,
    .move 0 .ok]

/-- What the first process has created and sent, whether it has ended, and the rows. -/
def handover (σ : System JobDesk JobProc) : List JobRun × List JobRun × Bool × List JobRun :=
  match σ.procs[(0 : Nat)]? with
  | some (.tick t) => (t.created, t.sent, t.pc.ended, σ.shared.db.runs)
  | _ => ([], [], false, [])

theorem handover_ended {created sent rows : List JobRun}
    (h : handover σ = (created, sent, true, rows)) :
    ∃ t, σ.procs[0]? = some (.tick t) ∧ t.created = created ∧ t.sent = sent ∧
      t.pc.ended = true ∧ σ.shared.db.runs = rows := by
  unfold handover at h
  split at h
  next t ht =>
    simp only [Prod.mk.injEq] at h
    exact ⟨t, ht, h.1, h.2.1, h.2.2.1, h.2.2.2⟩
  next => simp at h

/-- **A job deleted under the tick strands another job's run.**  The second job is gone
when its next fire is written; the run of the first stays Pending and is handed to
nobody. -/
theorem failed_tick_strands_run : ∃ σ t run,
      exec (jobProgram everyMinute).step ⟨.boot dueJobs, []⟩
        (firstJobDone ++ [.outer (.deleteJob 2), .move 0 .ok]) = some σ ∧
      σ.procs[0]? = some (.tick t) ∧ t.pc.ended = true ∧
      run ∈ t.created ∧ run ∉ t.sent ∧ run ∈ σ.shared.db.runs ∧ run.status = .pending := by
  obtain ⟨σ, hσ, hsummary⟩ : ∃ σ ∈ exec (jobProgram everyMinute).step ⟨.boot dueJobs, []⟩
      (firstJobDone ++ [.outer (.deleteJob 2), .move 0 .ok]),
      handover σ = ([⟨10, 1, .pending, 1, none⟩, ⟨11, 2, .pending, 1, none⟩], [], true,
        [⟨10, 1, .pending, 1, none⟩]) := by
    decide +kernel
  obtain ⟨t, ht, hcreated, hsent, hended, hrows⟩ := handover_ended hsummary
  refine ⟨σ, t, ⟨10, 1, .pending, 1, none⟩, hσ, ht, hended, ?_, ?_, ?_, rfl⟩
  · rw [hcreated]
    exact List.mem_cons_self
  · rw [hsent]
    exact List.not_mem_nil
  · rw [hrows]
    exact List.mem_cons_self

/-- Nothing fails, and both runs are handed over. -/
theorem tick_hands_created_both : ∃ σ t,
      exec (jobProgram everyMinute).step ⟨.boot dueJobs, []⟩
        (firstJobDone ++ [.move 0 .ok, .move 0 .ok, .move 0 .ok]) = some σ ∧
      σ.procs[0]? = some (.tick t) ∧ t.created.length = 2 ∧ ∀ run ∈ t.created, run ∈ t.sent := by
  obtain ⟨σ, hσ, hsummary⟩ : ∃ σ ∈ exec (jobProgram everyMinute).step ⟨.boot dueJobs, []⟩
      (firstJobDone ++ [.move 0 .ok, .move 0 .ok, .move 0 .ok]),
      handover σ = ([⟨10, 1, .pending, 1, none⟩, ⟨11, 2, .pending, 1, none⟩],
        [⟨10, 1, .pending, 1, none⟩, ⟨11, 2, .pending, 1, none⟩], true,
        [⟨11, 2, .pending, 1, none⟩, ⟨10, 1, .pending, 1, none⟩]) := by
    decide +kernel
  obtain ⟨t, ht, hcreated, -, hended, -⟩ := handover_ended hsummary
  refine ⟨σ, t, hσ, ht, ?_, (tick_hands_created_iff hσ ht hended).mpr ?_⟩
  · rw [hcreated]
    rfl
  · exact guarded_of_checked (fun _ _ h => h) (by decide +kernel)

end Denia.Jobs
