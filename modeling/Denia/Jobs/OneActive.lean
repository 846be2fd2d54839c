/-
  Denia.Jobs.OneActive — is a job ever run twice at the same time?

  `run_job` and `tick` both look for an active run and then insert one, in TWO calls.  Every
  run is in one place: with the process that created it, in the channel, or with the executor,
  and as long as it is there its row is Pending or Running (or deleted).  So no status update
  makes a row active again, and only an insert can.

  Main results: `carried_keeps`, the places of runs; `one_active_run`, if a job is looked at
  by one caller at a time; `two_active_runs`.
-/
import Denia.Jobs.Handover

namespace Denia.Jobs

open Lib

/-! ## §1. Every run is in one place. -/

/-- The id is given out, and the run, unless it is deleted, is Pending or Running. -/
def JobStore.Live (db : JobStore) (id : Uuid) : Prop := id < db.nextId ∧ db.Unfinished id

/-- The runs in the channel are live and different. -/
structure QueueLive (s : JobDesk) : Prop where
  live : ∀ run ∈ s.queue, s.db.Live run.id
  nodup : (s.queue.map (·.id)).Nodup

/-- The runs in the hands of a process are live, different, and not in the channel. -/
structure CarriedLive (s : JobDesk) (p : JobProc) : Prop where
  live : ∀ run ∈ p.carried, s.db.Live run.id
  nodup : (p.carried.map (·.id)).Nodup
  apart : ∀ run ∈ p.carried, ∀ queued ∈ s.queue, run.id ≠ queued.id

/-- No run is in the hands of two processes. -/
def CarriedApart (p q : JobProc) : Prop :=
  ∀ run ∈ p.carried, ∀ other ∈ q.carried, run.id ≠ other.id

/-- The invariant of the whole system. -/
abbrev Placed (σ : System JobDesk JobProc) : Prop := σ.Holds QueueLive CarriedLive CarriedApart

namespace JobStore

variable {db db' : JobStore} {id : Uuid}

theorem Live.congr (h : db.Live id) (hruns : db'.runs = db.runs) (hnext : db'.nextId = db.nextId) :
    db'.Live id := by
  refine ⟨by rw [hnext]; exact h.1, fun run hrun => ?_⟩
  rw [hruns] at hrun
  exact h.2 run hrun

theorem Live.insertRun (h : db.Live id) (jobId : Uuid) (status : JobRunStatus) :
    (db.insertRun jobId status).1.Live id :=
  ⟨Nat.lt_succ_of_lt h.1, h.2.insertRun h.1 jobId status⟩

theorem live_created (jobId : Uuid) : (db.createJobRun jobId).1.Live (db.createJobRun jobId).2.id :=
  ⟨Nat.lt_succ_self _, unfinished_created jobId⟩

variable {f : JobRun → JobRun}

theorem Live.modifyRun {x : Uuid} (h : db.Live id) (hf : ∀ run, (f run).id = run.id)
    (hkeeps : id = x → ∀ run, (f run).status.active = true) : (db.modifyRun x f hf).Live id :=
  ⟨h.1, h.2.modifyRun hf hkeeps⟩

end JobStore

variable {s s' : JobDesk}

theorem outer_live {e : JobChange} (h : e.apply s = some s') :
    s'.queue = s.queue ∧ (∀ id, s.db.Live id → s'.db.Live id) ∧
      ∀ j id, s'.db.Active j id → s.db.Active j id := by
  cases e with
  | putJob =>
    obtain ⟨db, hput, rfl⟩ := Option.map_eq_some_iff.mp h
    unfold JobStore.putJob at hput
    split at hput <;> cases hput
    exact ⟨rfl, fun _ h => h, fun _ _ h => h⟩
  | deleteJob jobId =>
    cases h
    exact ⟨rfl, fun id h => ⟨h.1, h.2.deleteJob jobId⟩, fun _ _ => JobStore.active_deleteJob⟩

/-- A change that leaves live what is live, and the channel as it is. -/
theorem QueueLive.mono (h : QueueLive s) (hqueue : s'.queue = s.queue)
    (hlive : ∀ id, s.db.Live id → s'.db.Live id) :
    QueueLive s' ∧ ∀ q, CarriedLive s q → CarriedLive s' q := by
  refine ⟨⟨?_, ?_⟩, fun q hq => ⟨fun run hrun => hlive run.id (hq.live run hrun), hq.nodup, ?_⟩⟩
  · rw [hqueue]
    exact fun run hrun => hlive run.id (h.live run hrun)
  · rw [hqueue]
    exact h.nodup
  · rw [hqueue]
    exact hq.apart

variable {p p' : JobProc} {j : Uuid}

section
variable {σ : System JobDesk JobProc} {i : Nat}

variable (hσ : Placed σ) (hp : σ.procs[i]? = some p)
include hσ hp

/-- The runs in the hands of a process and those in the channel. -/
theorem Placed.held : ((p.carried ++ σ.shared.queue).map (·.id)).Nodup ∧
      ∀ run ∈ p.carried ++ σ.shared.queue, σ.shared.db.Live run.id := by
  have hL := hσ.each i p hp
  constructor
  · rw [List.map_append]
    refine hL.nodup.append hσ.shared.nodup ?_
    intro id hcarried hqueued
    obtain ⟨run, hrun, rfl⟩ := List.mem_map.mp hcarried
    obtain ⟨queued, hqueued, heq⟩ := List.mem_map.mp hqueued
    exact hL.apart run hrun queued hqueued heq.symm
  · intro run hrun
    rcases List.mem_append.mp hrun with hrun | hrun
    · exact hL.live run hrun
    · exact hσ.shared.live run hrun

/-- What is owed of the state and the process after a call, and of all the others. -/
def PlacedAfter (σ : System JobDesk JobProc) (i : Nat) (s' : JobDesk) (p' : JobProc) : Prop :=
  QueueLive s' ∧ CarriedLive s' p' ∧
    ∀ (j : Nat) q, j ≠ i → σ.procs[j]? = some q → CarriedLive s' q ∧ CarriedApart p' q

/-- A call concerns the runs in its hands and in the channel, and new ones: those it leaves
there are different and live, and what others carry stays live. -/
theorem placed_of (hnodup : ((p'.carried ++ s'.queue).map (·.id)).Nodup)
    (hheld : ∀ run ∈ p'.carried ++ s'.queue, s'.db.Live run.id ∧
      (run ∈ p.carried ++ σ.shared.queue ∨ ¬ σ.shared.db.Live run.id))
    (hothers : ∀ id, (∀ run ∈ p.carried, run.id ≠ id) → σ.shared.db.Live id → s'.db.Live id) :
    PlacedAfter σ i s' p' := by
  have happart : ∀ j q, j ≠ i → σ.procs[j]? = some q → ∀ run ∈ p'.carried ++ s'.queue,
      ∀ other ∈ q.carried, run.id ≠ other.id := by
    intro j q hj hq run hrun other hother heq
    have hL := hσ.each j q hq
    rcases (hheld run hrun).2 with hold | hnew
    · rcases List.mem_append.mp hold with hold | hold
      · exact hσ.apart i j p q hj.symm hp hq run hold other hother heq
      · exact hL.apart other hother run hold heq.symm
    · exact hnew (heq ▸ hL.live other hother)
  rw [List.map_append, List.nodup_append] at hnodup
  obtain ⟨hcarried, hqueue, hdistinct⟩ := hnodup
  refine ⟨⟨fun run hrun => (hheld run (List.mem_append_right _ hrun)).1, hqueue⟩,
    ⟨fun run hrun => (hheld run (List.mem_append_left _ hrun)).1, hcarried,
      fun run hrun queued hqueued => hdistinct _ (List.mem_map_of_mem hrun) _
        (List.mem_map_of_mem hqueued)⟩, fun j q hj hq => ⟨⟨fun run hrun => ?_, ?_, ?_⟩, ?_⟩⟩
  · exact hothers run.id (fun own hown => hσ.apart i j p q hj.symm hp hq own hown run hrun)
      ((hσ.each j q hq).live run hrun)
  · exact (hσ.each j q hq).nodup
  · exact fun run hrun queued hqueued =>
      (happart j q hj hq queued (List.mem_append_right _ hqueued) run hrun).symm
  · exact fun run hrun => happart j q hj hq run (List.mem_append_left _ hrun)

/-- A call that creates no run: what it holds it held before. -/
theorem placed_sublist (hsub : ∃ held : List JobRun, held.Perm (p'.carried ++ s'.queue) ∧
      held.Sublist (p.carried ++ σ.shared.queue))
    (hlive : ∀ run ∈ p'.carried ++ s'.queue, σ.shared.db.Live run.id → s'.db.Live run.id)
    (hothers : ∀ id, (∀ run ∈ p.carried, run.id ≠ id) → σ.shared.db.Live id → s'.db.Live id) :
    PlacedAfter σ i s' p' := by
  obtain ⟨held, hperm, hsub⟩ := hsub
  obtain ⟨hnodup, hheld⟩ := hσ.held hp
  refine placed_of hσ hp ?_ (fun run hrun => ?_) hothers
  · exact (hperm.map _).nodup (hnodup.sublist (hsub.map _))
  · have hold := hsub.subset (hperm.mem_iff.mpr hrun)
    exact ⟨hlive run hrun (hheld run hold), .inl hold⟩

/-- A call that moves no run. -/
theorem placed_still (hqueue : s'.queue = σ.shared.queue)
    (hlive : ∀ id, σ.shared.db.Live id → s'.db.Live id) (hcarried : p'.carried.Sublist p.carried) :
    PlacedAfter σ i s' p' := by
  refine placed_sublist hσ hp ⟨_, .refl _, ?_⟩ (fun run _ => hlive run.id) fun id _ => hlive id
  rw [hqueue]
  exact hcarried.append_right _

theorem placed_create (hcarried : p'.carried = p.carried ++ [(σ.shared.db.createJobRun j).2]) :
    PlacedAfter σ i { σ.shared with db := (σ.shared.db.createJobRun j).1 } p' := by
  obtain ⟨hnodup, hheld⟩ := hσ.held hp
  have hlive : ∀ id, σ.shared.db.Live id → (σ.shared.db.createJobRun j).1.Live id :=
    fun id h => h.insertRun j .pending
  -- the new id is above all that were given out
  have hfresh : ¬ σ.shared.db.Live (σ.shared.db.createJobRun j).2.id :=
    fun hid => Nat.lt_irrefl _ hid.1
  refine placed_of hσ hp ?_ ?_ fun id _ => hlive id
  · rw [hcarried, List.append_assoc, List.map_append, List.map_append, List.map_singleton,
      List.singleton_append, List.nodup_middle, ← List.map_append]
    refine List.nodup_cons.mpr ⟨fun hmem => ?_, hnodup⟩
    obtain ⟨run, hrun, heq⟩ := List.mem_map.mp hmem
    exact hfresh (heq ▸ hheld run hrun)
  · rw [hcarried, List.append_assoc]
    intro run hrun
    rcases List.mem_append.mp hrun with hrun | hrun
    · have hold := List.mem_append_left σ.shared.queue hrun
      exact ⟨hlive _ (hheld run hold), .inl hold⟩
    · rcases List.mem_cons.mp hrun with rfl | hrun
      · exact ⟨JobStore.live_created j, .inr hfresh⟩
      · have hold := List.mem_append_right p.carried hrun
        exact ⟨hlive _ (hheld run hold), .inl hold⟩

variable {run : JobRun}

theorem placed_enqueue (hcarried : p.carried = run :: p'.carried) :
    PlacedAfter σ i { σ.shared with queue := σ.shared.queue ++ [run] } p' := by
  refine placed_sublist hσ hp ⟨run :: (p'.carried ++ σ.shared.queue), ?_, ?_⟩ (fun _ _ h => h)
    fun _ _ h => h
  · rw [← List.append_assoc]
    exact (List.perm_append_singleton run _).symm
  · rw [hcarried, List.cons_append]

theorem placed_dequeue {queue : List JobRun} (hqueue : σ.shared.queue = run :: queue)
    (hcarried : p'.carried = [run]) : PlacedAfter σ i { σ.shared with queue := queue } p' := by
  refine placed_sublist hσ hp ⟨_, .refl _, ?_⟩ (fun _ _ h => h) fun _ _ h => h
  rw [hcarried, hqueue]
  exact List.sublist_append_right _ _

theorem placed_update {f : JobRun → JobRun} {hf : ∀ r, (f r).id = r.id}
    (hcarried : p.carried = [run])
    (hafter : p'.carried = [run] ∧ (∀ r, (f r).status.active = true) ∨
      p'.carried = [] ∧ ∀ r, (f r).status.active = false) :
    PlacedAfter σ i { σ.shared with db := σ.shared.db.modifyRun run.id f hf } p' := by
  have hrun : run ∈ p.carried := by
    rw [hcarried]
    exact List.mem_singleton.mpr rfl
  have hother : ∀ id, run.id ≠ id → σ.shared.db.Live id →
      (σ.shared.db.modifyRun run.id f hf).Live id :=
    fun id hne hid => hid.modifyRun hf fun heq => absurd heq.symm hne
  refine placed_sublist hσ hp ⟨_, .refl _, ?_⟩ (fun kept hkept hlive => ?_)
    fun id hne => hother id (hne run hrun)
  · refine List.Sublist.append_right ?_ _
    rcases hafter with ⟨hafter, -⟩ | ⟨hafter, -⟩ <;> rw [hafter, hcarried]
    exact List.nil_sublist _
  · rcases List.mem_append.mp hkept with hkept | hqueued
    · -- its own run is kept only if it stays active
      rcases hafter with ⟨-, hactive⟩ | ⟨hnone, -⟩
      · exact hlive.modifyRun hf fun _ => hactive
      · simp [hnone] at hkept
    · exact hother kept.id ((hσ.each i p hp).apart run hrun kept hqueued) hlive

end

/-- **Every run is in one place**, whatever the schedule. -/
theorem carried_keeps (cron : Cron) :
    (jobProgram cron).Keeps (fun _ _ => True) QueueLive CarriedLive CarriedApart where
  symm p q h run hrun other hother := (h other hother run hrun).symm
  start_each s r _ := by
    cases r <;> exact ⟨nofun, List.nodup_nil, nofun⟩
  start_apart r q := by
    cases r <;> exact nofun
  outer σ e s' hσ _ h := by
    obtain ⟨hqueue, hlive, -⟩ := outer_live h
    exact hσ.shared.mono hqueue hlive
  move σ i p reply s' p' hσ _ hp h := by
    have hmove : JobMove σ.shared p s' p' := advance_move h
    cases hmove with
    | quiet hruns hnext hqueue hcarried =>
      exact placed_still hσ hp hqueue (fun _ h => h.congr hruns hnext) hcarried
    | check j _ _ hcarried =>
      exact placed_still hσ hp rfl (fun _ h => h) (by rw [hcarried])
    | create j _ hcarried => exact placed_create hσ hp hcarried
    | skip j hcarried =>
      exact placed_still hσ hp rfl (fun _ h => h.insertRun j .skipped) (by rw [hcarried])
    | enqueue run hcarried => exact placed_enqueue hσ hp hcarried
    | dequeue run queue hqueue hcarried => exact placed_dequeue hσ hp hqueue hcarried
    | update run f hf _ hcarried hafter => exact placed_update hσ hp hcarried hafter

/-! ## §2. Callers that look before they insert. -/

/-- A caller looks for an active run of a job while no other caller is about to insert one
for the job. -/
def checksAlone (σ : System JobDesk JobProc) : Event JobRequest Reply JobChange → Bool
  | .move i .ok =>
      match σ.procs[i]? with
      | none => true
      | some p =>
          match p.checks with
          | none => true
          | some j => σ.procs.all fun q => q.window ≠ some j
  | _ => true

/-- No job has two active runs. -/
def OneActive (s : JobDesk) : Prop :=
  ∀ j a b, s.db.Active j a → s.db.Active j b → a = b

/-- The job a caller is about to insert a run for has none. -/
def WindowFree (s : JobDesk) (p : JobProc) : Prop :=
  ∀ j, p.window = some j → ∀ id, ¬ s.db.Active j id

/-- No two callers are about to insert a run for the same job. -/
def WindowsApart (p q : JobProc) : Prop :=
  ∀ j, p.window = some j → q.window ≠ some j

/-- A caller gets to the insert by a check that succeeds. -/
theorem window_ok {cron : Cron} {reply : Reply}
    (h : p.advance cron s reply = some (s', p')) (hwindow : p'.window = some j) : reply = .ok := by
  cases p with
  | manual m =>
    obtain ⟨⟨s1, m1⟩, hm, heq⟩ := Option.map_eq_some_iff.mp h
    cases heq
    obtain ⟨jobId, pc⟩ := m
    cases reply with
    | ok => rfl
    | fails =>
      cases pc <;> cases hm <;> cases hwindow
    | attempt => cases hm
  | tick t =>
    obtain ⟨⟨s1, t1⟩, ht, heq⟩ := Option.map_eq_some_iff.mp h
    cases heq
    obtain ⟨now, pc, created, sent⟩ := t
    cases reply with
    | ok => rfl
    | fails =>
      obtain ⟨t2, hfail, heq⟩ := Option.map_eq_some_iff.mp ht
      cases heq
      cases pc with
      | send run runs =>
        cases hfail
        cases (window_sending now runs created sent).symm.trans hwindow
      | claimDueJobs | activeRun | createSkippedRun | createJobRun | setJobNextRun =>
        cases hfail
        cases hwindow
      | finished | failed => cases hfail
    | attempt => cases ht
  | executor =>
    obtain ⟨⟨s1, x1⟩, -, heq⟩ := Option.map_eq_some_iff.mp h
    cases heq
    cases hwindow

/-- A call makes no row active, or it is the insert of a caller in the window; into the
window leads a check that finds no active run. -/
theorem JobMove.active (h : JobMove s p s' p') (hp : CarriedLive s p) :
    (p'.window = none ∧ ∀ j id, s'.db.Active j id → s.db.Active j id) ∨
      (s' = s ∧ ∃ j, p.checks = some j ∧ p'.window = some j ∧ ∀ id, ¬ s.db.Active j id) ∨
      ∃ j, p.window = some j ∧ p'.window = none ∧ s'.db = (s.db.createJobRun j).1 := by
  cases h with
  | quiet hruns _ _ _ hwindow' =>
    refine .inl ⟨hwindow', fun j id hactive => ?_⟩
    obtain ⟨run, hrun, hrest⟩ := hactive
    rw [hruns] at hrun
    exact ⟨run, hrun, hrest⟩
  | check j hchecks hnone _ hwindow' =>
    exact .inr (.inl ⟨rfl, j, hchecks, hwindow', JobStore.activeRun_eq_none.mp hnone⟩)
  | enqueue _ _ hwindow' | dequeue _ _ _ _ hwindow' => exact .inl ⟨hwindow', fun _ _ h => h⟩
  | create j hwindow _ hwindow' => exact .inr (.inr ⟨j, hwindow, hwindow', rfl⟩)
  | skip j _ hwindow' =>
    refine .inl ⟨hwindow', fun k id hactive => ?_⟩
    rcases JobStore.active_insertRun.mp hactive with hactive | ⟨hskipped, -⟩
    · exact hactive
    · cases hskipped
  | update run f hf hjob hcarried _ hwindow' =>
    refine .inl ⟨hwindow', fun j id => JobStore.active_modifyRun hf hjob ?_⟩
    -- the row is that of a run in hand, which is not finished
    intro r hr hid _
    exact (hp.live run (by rw [hcarried]; exact List.mem_singleton.mpr rfl)).2 r hr hid

/-- The insert of a caller whose job has no active run, and nobody else's job gets one. -/
theorem active_created {db : JobStore} (hone : OneActive s) (hnone : ∀ id, ¬ s.db.Active j id)
    (hdb : db = (s.db.createJobRun j).1) : (∀ k a b, db.Active k a → db.Active k b → a = b) ∧
      ∀ k id, k ≠ j → db.Active k id → s.db.Active k id := by
  have hcases : ∀ k id, db.Active k id → s.db.Active k id ∨ k = j ∧ id = s.db.nextId := by
    intro k id hid
    rw [hdb] at hid
    rcases JobStore.active_insertRun.mp hid with hid | ⟨-, hid⟩
    · exact .inl hid
    · exact .inr hid
  constructor
  · intro k a b ha hb
    rcases hcases k a ha with ha | ⟨rfl, ha⟩
    · rcases hcases k b hb with hb | ⟨rfl, -⟩
      · exact hone k a b ha hb
      · exact absurd ha (hnone a)
    · rcases hcases _ b hb with hb | ⟨-, hb⟩
      · exact absurd hb (hnone b)
      · exact ha.trans hb.symm
  · intro k id hne hid
    rcases hcases k id hid with hid | ⟨heq, -⟩
    · exact hid
    · exact absurd heq hne

theorem active_keeps (cron : Cron) :
    (jobProgram cron).Keeps (fun σ event => checksAlone σ event = true ∧ Placed σ)
      OneActive WindowFree WindowsApart where
  symm p q h j hq hp := h j hp hq
  start_each s r _ j h := by
    cases r <;> cases h
  start_apart r q j h := by
    cases r <;> cases h
  outer σ e s' hσ _ h := by
    obtain ⟨-, -, hactive⟩ := outer_live h
    exact ⟨fun j a b ha hb => hσ.shared j a b (hactive j a ha) (hactive j b hb),
      fun q hq j hj id hid => hq j hj id (hactive j id hid)⟩
  move σ i p reply s' p' hσ hguard hp h := by
    have hmove : JobMove σ.shared p s' p' := advance_move h
    have hnowhere : p'.window = none → ∀ {P : Uuid → Prop} j, p'.window = some j → P j := by
      intro hnone P j hj
      simp [hnone] at hj
    rcases hmove.active (hguard.2.each i p hp) with
      ⟨hwindow', hactive⟩ | ⟨rfl, j, hchecks, hwindow', hnone⟩ | ⟨j, hwindow, hwindow', hdb⟩
    · exact ⟨fun j a b ha hb => hσ.shared j a b (hactive j a ha) (hactive j b hb),
        hnowhere hwindow', fun k q _ hq =>
          ⟨fun j hj id hid => hσ.each k q hq j hj id (hactive j id hid), hnowhere hwindow'⟩⟩
    · -- the check: nobody else is in the window it leads into
      have hall : ∀ q ∈ σ.procs, q.window ≠ some j := by
        have halone := hguard.1
        rw [window_ok h hwindow'] at halone
        simpa [checksAlone, hp, hchecks] using halone
      refine ⟨hσ.shared, fun k hk => ?_, fun k q _ hq => ⟨hσ.each k q hq, fun k' hk => ?_⟩⟩
      · cases hwindow'.symm.trans hk
        exact hnone
      · cases hwindow'.symm.trans hk
        exact hall q (List.mem_of_getElem? hq)
    · obtain ⟨hone, hothers⟩ := active_created hσ.shared (hσ.each i p hp j hwindow) hdb
      refine ⟨hone, hnowhere hwindow', fun k q hk hq => ⟨fun j' hj' id hid => ?_,
        hnowhere hwindow'⟩⟩
      -- the insert is for another job than theirs
      have hne : j' ≠ j := by
        intro heq
        exact hσ.apart i k p q hk.symm hp hq j hwindow (heq ▸ hj')
      exact hσ.each k q hq j' hj' id (hothers j' id hne hid)

/-! ## §3. The result. -/

/-- Rows of one id only are one row at most. -/
theorem length_active_le_one (h : OneActive s) (jobId : Uuid) :
    ((s.db.listJobRuns jobId).filter (·.status.active)).length ≤ 1 := by
  have hids : ((s.db.listJobRuns jobId).filter (·.status.active)).map (·.id) |>.Nodup :=
    s.db.run_id_unique.sublist ((List.filter_sublist.trans List.filter_sublist).map _)
  have hactive : ∀ run ∈ (s.db.listJobRuns jobId).filter (·.status.active),
      s.db.Active jobId run.id := by
    intro run hrun
    obtain ⟨hrun, hstatus⟩ := List.mem_filter.mp hrun
    obtain ⟨hrun, hjob⟩ := List.mem_filter.mp hrun
    exact ⟨run, hrun, rfl, by simpa using hjob, hstatus⟩
  generalize (s.db.listJobRuns jobId).filter (·.status.active) = rows at hids hactive ⊢
  match rows with
  | [] => exact Nat.zero_le _
  | [_] => exact Nat.le_refl _
  | a :: b :: rest =>
    have heq : a.id = b.id := h jobId a.id b.id (hactive a (by simp)) (hactive b (by simp))
    simp [heq] at hids

/-- **A job has at most one Pending or Running run**, in every interleaving in which each
caller that looks for an active run of a job does so while no other caller is about to
insert one for it. -/
theorem one_active_run {cron : Cron} {db : JobStore}
    {events : List (Event JobRequest Reply JobChange)} {σ : System JobDesk JobProc}
    (halone : Guarded (jobProgram cron).step (fun σ event => checksAlone σ event = true)
      ⟨.boot db, []⟩ events)
    (h : exec (jobProgram cron).step ⟨.boot db, []⟩ events = some σ) (jobId : Uuid) :
    ((σ.shared.db.listJobRuns jobId).filter (·.status.active)).length ≤ 1 := by
  have hplaced : Placed ⟨.boot db, []⟩ := .start ⟨nofun, List.nodup_nil⟩
  have hone : OneActive (.boot db) :=
    fun j a b ha _ => absurd ha JobStore.not_active_failOrphanRuns
  have hguard := guarded_and halone (guarded_of_invariant
    (fun _ _ _ hσ _ hs => (carried_keeps cron).step hσ trivial hs) hplaced halone)
  exact length_active_le_one ((active_keeps cron).run (.start hone) hguard h).shared jobId

/-! ## §4. Two callers. -/

/-- **Two requests, two active runs.**  Both look before either inserts. -/
theorem two_active_runs : ∃ σ,
      exec (jobProgram everyMinute).step ⟨.boot dueJobs, []⟩
        [.spawn (.runJob 1), .spawn (.runJob 1), .move 0 .ok, .move 0 .ok, .move 1 .ok, .move 1 .ok,
          .move 0 .ok, .move 1 .ok] = some σ ∧
      ((σ.shared.db.listJobRuns 1).filter (·.status.active)).length = 2 := by
  decide +kernel

/-- A request, and a tick that looks at the job after its run is inserted and skips it. -/
theorem one_active_run_skip : ∃ σ,
      exec (jobProgram everyMinute).step ⟨.boot dueJobs, []⟩
        [.spawn (.runJob 1), .spawn (.tick 100), .move 1 .ok, .move 0 .ok, .move 0 .ok, .move 0 .ok,
          .move 1 .ok, .move 1 .ok] = some σ ∧
      ((σ.shared.db.listJobRuns 1).filter (·.status.active)).length ≤ 1 := by
  refine exists_run (fun _ => True) (by decide +kernel) fun σ hσ _ => ?_
  exact one_active_run (guarded_of_checked (fun _ _ h => h) (by decide +kernel)) hσ 1

end Denia.Jobs
