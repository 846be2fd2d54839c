/-
  Denia.Observability.DeploymentLog — a deploy that writes its log, and a client that
  follows it (`run_with_deps` in `src/deploy/coordinator.rs`, `src/deploy/log.rs`,
  `deployment_log_stream` in `src/api/deployments.rs`).

  The pipeline takes turns with the stream task; each line is a step of its own.  The tailer is
  one that returns every complete line once.  The stream closes if a poll returned nothing and
  the row, read AFTER it, has an end status.  That leaves two windows: between the poll and the
  row, and behind the status change, where the `HEALTHY` line is still to be written.

  Main results: `next_linesLeft`, nine lines at most, so the backlog holds them all;
  `next_row`, an end status comes last; `log_stream_complete`, outside the two windows.
-/
import Denia.Deploy.OneLive
import Denia.Observability.LogStream

namespace Denia.Observability

open Deploy Lib

/-! ## §1. The lines of a deploy. -/

/-- The messages of the pipeline. -/
inductive LogMessage where
  | text (message : String)
  /-- `deployment_id={deployment_id}`. -/
  | deploymentId (id : Uuid)
  /-- `port={internal_port}`. -/
  | port (port : Nat)
  /-- `{e:?}`. -/
  | debug (error : DeployError)
  deriving DecidableEq

/-- A line of the log, past its timestamp. -/
structure LogLine where
  phase : String
  message : LogMessage
  deriving DecidableEq

/-- The line behind a status change. -/
def statusLines : Effect → List LogLine
  | .setStatus _ .building => [⟨"BUILDING", .text "resolving auth + acquiring artifact"⟩]
  | .setStatus _ .starting => [⟨"STARTING", .text "launching runtime"⟩]
  | .setStatus _ .healthy => [⟨"HEALTHY", .text "deployment promoted"⟩]
  | _ => []

/-- The line before a call. -/
def callLines (t : DeployTask) : DeployPc → List LogLine
  | .building => [⟨"START", .deploymentId t.deploymentId⟩]
  | .redeployPromoted => [⟨"REDEPLOY", .text "reusing current promoted artifact"⟩]
  | .putArtifact _ => [⟨"OCI_PULL", .text "done"⟩]
  | .handoffPromote =>
    [⟨"AUTOSCALE_HANDOFF", .text "autoscaled service: controller owns replicas"⟩]
  | .start _ _ => [⟨"RUNTIME_START", .port t.service.internalPort⟩]
  | .health _ => [⟨"HEALTHCHECK", .text "starting"⟩]
  | .promote _ => [⟨"HEALTHCHECK", .text "passed"⟩]
  | .failedStatus e => [⟨"ERROR", .debug e⟩]
  | _ => []

/-- How many lines can follow the call at a counter. -/
def linesLeft : DeployPc → Nat
  | .building => 8
  | .acquire | .redeployPromoted | .redeployArtifact _ => 6
  | .putArtifact _ | .setArtifact _ | .starting _ => 5
  | .project _ => 4
  | .start _ _ => 3
  | .health _ => 2
  | .handoffPromote | .promote _ | .addReplica _ | .replicaHealthy | .hostnames | .routes _
  | .compensateStop _ | .compensateRemove _ | .healthyStatus => 1
  | .failedStatus _ | .done _ => 0

variable {answer : Answer} {effect : Effect} {pc : DeployPc}

section
variable {t : DeployTask} {w : World}

/-- What a counter stands for: its own line and those behind it. -/
def toWrite (t : DeployTask) (pc : DeployPc) : Nat := (callLines t pc).length + linesLeft pc

theorem toWrite_fail (e : DeployError) : toWrite t (t.fail e) ≤ 1 := by
  unfold DeployTask.fail
  split
  · exact Nat.le_refl 1
  · exact Nat.zero_le 1

theorem toWrite_failWired (e : DeployError) : toWrite t (t.failWired e) ≤ 1 := by
  unfold DeployTask.failWired
  split
  · exact toWrite_fail e
  · exact Nat.le_refl 1

theorem toWrite_acquirePc : toWrite t t.acquirePc ≤ 7 := by
  unfold DeployTask.acquirePc
  split <;> first
    | exact (toWrite_fail _).trans (by decide)
    | exact Nat.le_refl 7
    | exact Nat.le_succ 6

theorem toWrite_finalizePc (artifact : String) : toWrite t (t.finalizePc artifact) ≤ 4 := by
  unfold DeployTask.finalizePc
  split <;> simp [toWrite, callLines, linesLeft]

/-- **A call spends lines**: those it is followed by are among those that were left. -/
theorem next_linesLeft (h : t.next w answer = some (effect, pc)) :
    (statusLines effect ++ callLines t pc).length + linesLeft pc ≤ linesLeft t.pc := by
  rw [List.length_append, Nat.add_assoc]
  show (statusLines effect).length + toWrite t pc ≤ _
  have hfail := fun e => toWrite_fail (t := t) e
  have hwired := fun e => toWrite_failWired (t := t) e
  have hacquire := toWrite_acquirePc (t := t)
  have hfinalize := fun a => toWrite_finalizePc (t := t) a
  unfold DeployTask.next at h
  split at h
  all_goals try simp only [reduceCtorEq] at h
  all_goals rename_i hpc; rw [hpc]
  all_goals try split at h
  all_goals cases h
  all_goals simp only [statusLines, linesLeft, List.length_nil, List.length_singleton, Nat.zero_add]
  all_goals first
    | exact (hfail _).trans (by decide)
    | exact (hwired _).trans (by decide)
    | exact Nat.add_le_add_left hacquire 1
    | exact Nat.add_le_add_left (hfinalize _) 1
    | exact (hfinalize _).trans (by decide)
    | simp [toWrite, callLines, linesLeft]

/-- The statuses a deploy sets, and the row it promotes. -/
theorem next_writes (h : t.next w answer = some (effect, pc)) :
    (∀ d status, effect = .setStatus d status → closes (some status) = true →
      ∃ result, pc = .done result) ∧
    ∀ s d, effect = .promote s d ∨ effect = .demote s d → d = t.deploymentId := by
  unfold DeployTask.next at h
  split at h
  all_goals try simp only [reduceCtorEq] at h
  all_goals try split at h
  all_goals cases h
  all_goals simp [closes]

/-- The status in the row of a deployment. -/
def rowStatus (w : World) (id : Uuid) : Option DeploymentStatus := (w.store.row id).map (·.2)

/-- **The row has an end status only when the calls are over.** -/
theorem next_row (h : t.next w answer = some (effect, pc))
    (hopen : closes (rowStatus w t.deploymentId) = false)
    (hcloses : closes (rowStatus (w.apply effect) t.deploymentId) = true) :
    ∃ result, pc = .done result := by
  obtain ⟨hset, hpromote⟩ := next_writes h
  have hsame : (w.apply effect).store.row t.deploymentId ≠ w.store.row t.deploymentId := by
    intro heq
    rw [rowStatus, heq] at hcloses
    exact Bool.false_ne_true (hopen.symm.trans hcloses)
  cases effect with
  | setStatus d status =>
    refine hset d status rfl ?_
    have hrow := row_updateDeploymentStatus w.store d status t.deploymentId
    by_cases hd : t.deploymentId = d
    · rw [if_pos hd] at hrow
      unfold rowStatus World.apply World.onStore at hcloses
      rw [hrow] at hcloses
      cases hold : w.store.row t.deploymentId with
      | none => rw [hold] at hcloses; cases hcloses
      | some => rw [hold] at hcloses; exact hcloses
    · rw [if_neg hd] at hrow
      exact absurd hrow hsame
  | promote s d | demote s d =>
    -- the row that is demoted is another one
    obtain rfl := hpromote s d (by simp)
    have hrow := row_demoteOutgoing w.store s t.deploymentId t.deploymentId
    rw [if_neg fun hboth => hboth.2 rfl] at hrow
    exact absurd hrow hsame
  | setArtifact d digest => exact absurd (row_setDeploymentArtifact w.store d digest _) hsame
  | route =>
    exact absurd (congrArg (Store.row · t.deploymentId) (w.putSnapshot_store _)) hsame
  | unroute =>
    exact absurd (congrArg (Store.row · t.deploymentId) (w.putSnapshot_store _)) hsame
  | nothing | putArtifact _ | clearPromoted _ | start _ _ | stop _ _ | addEndpoint _ _
  | endpointHealthy _ | removeEndpoint _ => exact absurd rfl hsame

end

/-! ## §2. A deploy and its follower. -/

/-- A deploy, its log, and a stream of the log with its client. -/
structure Followed where
  world : World
  task : DeployTask
  /-- What the task writes before its next call. -/
  pending : List LogLine
  file : List LogLine
  /-- How many lines the tailer has gone past. -/
  returned : Nat
  stream : Stream LogLine

/-- Who moves, and what the outside answers. -/
inductive DeployEvent where
  | call (answer : Answer)
  /-- `log.write`, whose failure is ignored. -/
  | write (ok : Bool)
  /-- `tailer.backlog` or `tailer.poll`. -/
  | read (ok : Bool)
  | send
  /-- `get_deployment`. -/
  | row (ok : Bool)

namespace Followed

/-- A deploy that was accepted, and a stream that was. -/
def start (world : World) (task : DeployTask) : Followed :=
  { world, task, pending := callLines task task.pc, file := [], returned := 0
    stream := .opened .deployment }

/-- What the tailer returns: `backlog(10_000)` has a limit, a poll has none. -/
def tailed (s : Followed) : List LogLine :=
  match s.stream.pc with
  | .backlog => (s.file.drop s.returned).drop ((s.file.drop s.returned).length - 10000)
  | _ => s.file.drop s.returned

/-- The status of the row. -/
def status (s : Followed) : Option DeploymentStatus := rowStatus s.world s.task.deploymentId

/-- One event. -/
def step (s : Followed) : DeployEvent → Option Followed
  | .call answer =>
    if s.pending = [] then
      (s.task.next s.world answer).map fun (effect, pc) =>
        { s with
          world := s.world.apply effect
          task := { s.task with pc }
          pending := statusLines effect ++ callLines s.task pc }
    else none
  | .write ok =>
    match s.pending with
    | [] => none
    | line :: rest =>
      some { s with pending := rest, file := if ok then s.file ++ [line] else s.file }
  | .read true =>
    (s.stream.advance (.read (some s.tailed))).map fun stream =>
      { s with stream, returned := s.file.length }
  | .read false => (s.stream.advance (.read none)).map fun stream => { s with stream }
  | .send => (s.stream.advance .send).map fun stream => { s with stream }
  | .row ok =>
    (s.stream.advance (.row (if ok then s.status else none))).map fun stream => { s with stream }

/-- **The condition**: when the stream reads an end status, nothing has been written since
its poll, and no line is still to be written. -/
def settled (s : Followed) : DeployEvent → Bool
  | .row true => !closes s.status || (s.returned == s.file.length && s.pending.isEmpty)
  | _ => true

/-! ## §3. What was returned is sent. -/

/-- The events that a stream task is about to send. -/
def owed : StreamPc LogLine → List (SseEvent LogLine)
  | .send line rest _ => .line line :: rest.map .line
  | _ => []

/-- The last event, once it is sent. -/
def lastEvent : StreamPc LogLine → List (SseEvent LogLine)
  | .ended => [.done]
  | _ => []

/-- The task has left its loop. -/
def isOver : StreamPc LogLine → Bool
  | .done | .ended => true
  | _ => false

/-- The lines that a call brings. -/
def broughtBy : StreamCall LogLine → List LogLine
  | .read lines => lines.getD []
  | _ => []

section
variable {kind : StreamKind} {pc pc' : StreamPc LogLine} {call : StreamCall LogLine}
  {event : Option (SseEvent LogLine)}

theorem sendPc_loop (kind : StreamKind) (polled : Option Nat) (lines : List LogLine) :
    owed (sendPc kind polled lines) = lines.map .line ∧
      lastEvent (sendPc kind polled lines) = [] ∧ isOver (sendPc kind polled lines) = false := by
  cases lines with
  | nil =>
    simp only [sendPc, afterLines]
    split <;> exact ⟨rfl, rfl, rfl⟩
  | cons => exact ⟨rfl, rfl, rfl⟩

/-- One call of the task, by what it owes before and after. -/
theorem streamNext_owed (h : streamNext kind true pc call = some (event, pc')) : lastEvent pc = [] ∧
      event.toList ++ owed pc' = owed pc ++ (broughtBy call).map .line ++ lastEvent pc' ∧
      (isOver pc' = true → isOver pc = true ∧ call = .send ∨
        ∃ status, call = .row status ∧ closes status = true) := by
  unfold streamNext at h
  split at h
  next => -- the backlog cannot be read
    cases h
    exact ⟨rfl, rfl, nofun⟩
  next lines => -- the backlog
    cases h
    obtain ⟨howed, hlast, hover⟩ := sendPc_loop kind none lines
    rw [howed, hlast, hover, List.append_nil]
    exact ⟨rfl, rfl, nofun⟩
  next lines => -- a poll
    cases h
    obtain ⟨howed, hlast, hover⟩ := sendPc_loop kind (some (lines.getD []).length) (lines.getD [])
    rw [howed, hlast, hover, List.append_nil]
    exact ⟨rfl, rfl, nofun⟩
  next line rest polled => -- a line is sent
    cases h
    obtain ⟨howed, hlast, hover⟩ := sendPc_loop kind polled rest
    rw [howed, hlast, hover, List.append_nil]
    exact ⟨rfl, (List.append_nil _).symm, nofun⟩
  next status => -- the row
    cases h
    cases hcloses : closes status with
    | true => exact ⟨rfl, rfl, fun _ => .inr ⟨status, rfl, hcloses⟩⟩
    | false => exact ⟨rfl, rfl, nofun⟩
  next => -- the last event
    cases h
    exact ⟨rfl, rfl, fun _ => .inl ⟨rfl, rfl⟩⟩
  next => cases h

end

/-- Every line is written and was returned, and no call is to come. -/
structure Complete (s : Followed) : Prop where
  returned : s.returned = s.file.length
  pending : s.pending = []
  ended : ∃ result, s.task.pc = .done result

/-- The invariant. -/
structure Inv (s : Followed) : Prop where
  connected : s.stream.connected = true
  row : closes s.status = true → ∃ result, s.task.pc = .done result
  lines : s.file.length + s.pending.length + linesLeft s.task.pc ≤ 9
  within : s.returned ≤ s.file.length
  sent : s.stream.sent ++ owed s.stream.pc
    = (s.file.take s.returned).map .line ++ lastEvent s.stream.pc
  complete : isOver s.stream.pc = true → Complete s

variable {s s' : Followed}

/-- The pipeline makes its next call. -/
theorem Inv.call (h : Inv s) (hpending : s.pending = [])
    (hnext : s.task.next s.world answer = some (effect, pc)) : Inv { s with
      world := s.world.apply effect
      task := { s.task with pc }
      pending := statusLines effect ++ callLines s.task pc } := by
  have hgoing : ¬ ∃ result, s.task.pc = .done result := by
    rintro ⟨result, hdone⟩
    unfold DeployTask.next at hnext
    simp [hdone] at hnext
  refine ⟨h.connected, fun hcloses => ?_, ?_, h.within, h.sent, fun hover => ?_⟩
  · exact next_row hnext (Bool.eq_false_iff.mpr fun hclosed => hgoing (h.row hclosed)) hcloses
  · have hspends := next_linesLeft hnext
    have hlines := h.lines
    rw [hpending, List.length_nil] at hlines
    show s.file.length + (statusLines effect ++ callLines s.task pc).length + linesLeft pc ≤ 9
    omega
  · exact absurd (h.complete hover).ended hgoing

/-- The pipeline writes a line. -/
theorem Inv.write {line : LogLine} {rest : List LogLine} (h : Inv s)
    (hpending : s.pending = line :: rest) (ok : Bool) :
    Inv { s with pending := rest, file := if ok then s.file ++ [line] else s.file } := by
  have hlines := h.lines
  rw [hpending, List.length_cons] at hlines
  refine ⟨h.connected, h.row, ?_, ?_, ?_, fun hover => ?_⟩
  · show (if ok then s.file ++ [line] else s.file).length + rest.length + linesLeft s.task.pc ≤ 9
    cases ok with
    | true =>
      rw [if_pos rfl, List.length_append, List.length_singleton]
      omega
    | false =>
      rw [if_neg Bool.false_ne_true]
      omega
  · cases ok with
    | true => exact h.within.trans (List.prefix_append _ _).length_le
    | false => exact h.within
  · have htake : (if ok then s.file ++ [line] else s.file).take s.returned
        = s.file.take s.returned := by
      cases ok with
      | true => exact List.take_append_of_le_length h.within
      | false => rfl
    show s.stream.sent ++ owed s.stream.pc = _
    rw [htake]
    exact h.sent
  · have hnone := (h.complete hover).pending
    simp [hpending] at hnone

/-- The stream task makes a call, and the tailer goes past the lines it brings. -/
theorem Inv.stream {call : StreamCall LogLine} {stream : Stream LogLine} {returned : Nat}
    (h : Inv s) (hadvance : s.stream.advance call = some stream)
    (hbrought : s.file.take s.returned ++ broughtBy call = s.file.take returned)
    (hwithin : returned ≤ s.file.length) (hsend : call = .send → returned = s.returned)
    (hrow : ∀ status, call = .row status → closes status = true →
      Complete { s with stream, returned }) : Inv { s with stream, returned } := by
  obtain ⟨event, pc, hnext, rfl⟩ := Stream.advance_eq hadvance
  rw [h.connected] at hnext
  obtain ⟨hlast, howed, hover⟩ := streamNext_owed hnext
  refine ⟨h.connected, h.row, h.lines, hwithin, ?_, fun hpc => ?_⟩
  · have hsent := h.sent
    rw [hlast, List.append_nil] at hsent
    show s.stream.sent ++ event.toList ++ owed pc = _
    rw [List.append_assoc, howed, ← List.append_assoc, ← List.append_assoc, hsent,
      ← List.map_append, hbrought]
  · rcases hover hpc with ⟨hbefore, hcall⟩ | ⟨status, hcall, hcloses⟩
    · obtain ⟨hreturned, hpending, hended⟩ := h.complete hbefore
      exact ⟨(hsend hcall).trans hreturned, hpending, hended⟩
    · exact hrow status hcall hcloses

/-- The backlog is within its limit. -/
theorem Inv.tailed_eq (h : Inv s) : s.tailed = s.file.drop s.returned := by
  unfold tailed
  split
  · have hlen := h.lines
    have hshort : (s.file.drop s.returned).length - 10000 = 0 := by
      rw [List.length_drop]
      omega
    rw [hshort, List.drop_zero]
  · rfl

/-- **One event** of the pipeline, of the stream or of the outside. -/
theorem Inv.step {event : DeployEvent} (h : Inv s) (hsettled : s.settled event = true)
    (hstep : s.step event = some s') : Inv s' := by
  cases event with
  | call =>
    simp only [Followed.step] at hstep
    split at hstep
    next hpending =>
      obtain ⟨⟨effect, pc⟩, hnext, rfl⟩ := Option.map_eq_some_iff.mp hstep
      exact h.call hpending hnext
    next => cases hstep
  | write ok =>
    simp only [Followed.step] at hstep
    split at hstep <;> cases hstep
    next line rest hpending => exact h.write hpending ok
  | read ok =>
    cases ok with
    | true =>
      obtain ⟨stream, hadvance, rfl⟩ := Option.map_eq_some_iff.mp hstep
      refine h.stream hadvance ?_ (Nat.le_refl _) nofun nofun
      show s.file.take s.returned ++ s.tailed = _
      rw [h.tailed_eq, List.take_append_drop, List.take_length]
    | false =>
      obtain ⟨stream, hadvance, rfl⟩ := Option.map_eq_some_iff.mp hstep
      exact h.stream hadvance (List.append_nil _) h.within nofun nofun
  | send =>
    obtain ⟨stream, hadvance, rfl⟩ := Option.map_eq_some_iff.mp hstep
    exact h.stream hadvance (List.append_nil _) h.within (fun _ => rfl) nofun
  | row ok =>
    obtain ⟨stream, hadvance, rfl⟩ := Option.map_eq_some_iff.mp hstep
    refine h.stream hadvance (List.append_nil _) h.within nofun fun status hcall hcloses => ?_
    cases hcall
    cases ok with
    | false => cases hcloses
    | true =>
      -- the row has an end status, so the condition says the rest
      simp only [settled, show closes s.status = true from hcloses, Bool.not_true, Bool.false_or,
        Bool.and_eq_true, beq_iff_eq, List.isEmpty_iff] at hsettled
      exact ⟨hsettled.1, hsettled.2, h.row hcloses⟩

theorem inv_start {world : World} {id : Uuid} (service : ServiceConfig)
    (request : DeploymentRequest) (hopen : closes (rowStatus world id) = false) :
    Inv (start world (.runWithDeps id service request)) := by
  refine ⟨rfl, fun hcloses => ?_, Nat.le_refl 9, Nat.le_refl 0, rfl, nofun⟩
  exact absurd (hopen.symm.trans hcloses) Bool.false_ne_true

/-- **The log is not cut off**, as long as the stream reads an end status only when nothing
has been written since its poll and nothing is still to be written: the client of a deploy
that starts from a row without an end status is sent every line before `done`, and there
will be no other. -/
theorem log_stream_complete {world : World} {id : Uuid} {service : ServiceConfig}
    {request : DeploymentRequest} (hopen : closes (rowStatus world id) = false)
    {events : List DeployEvent} {s : Followed}
    (hrun : exec step (start world (.runWithDeps id service request)) events = some s)
    (hsettled : Guarded step (fun s event => s.settled event = true)
      (start world (.runWithDeps id service request)) events) (hdone : .done ∈ s.stream.sent) :
    s.stream.sent = s.file.map .line ++ [.done] ∧ s.pending = [] ∧
      ∃ result, s.task.pc = .done result := by
  have hinv : Inv s := exec_invariant Inv (fun _ _ _ h hs hstep => h.step hs hstep)
    (inv_start service request hopen) hsettled hrun
  have hall := hinv.sent
  -- only the last event is `done`
  have hended : s.stream.pc = .ended := by
    have hmem : .done ∈ (s.file.take s.returned).map SseEvent.line ++ lastEvent s.stream.pc :=
      hall ▸ List.mem_append_left _ hdone
    rcases List.mem_append.mp hmem with hline | hlast
    · obtain ⟨line, -, heq⟩ := List.mem_map.mp hline
      cases heq
    · cases hpc : s.stream.pc <;> rw [hpc] at hlast <;> first | rfl | cases hlast
  obtain ⟨hreturned, hpending, hover⟩ := hinv.complete (by rw [hended]; rfl)
  rw [hended, hreturned, List.take_length] at hall
  exact ⟨(List.append_nil _).symm.trans hall, hpending, hover⟩

/-- A deploy of `shop` that was just accepted, and its log stream. -/
def shopFollowed (request : DeploymentRequest) : Followed :=
  start (idleWorld.onStore fun db => (db.createDeployment 1).1)
    (.runWithDeps idleWorld.store.nextId (.plain 1 "shop") request)

/-- A deploy goes through, up to its last status, and the seven lines are sent. -/
def promoted : List DeployEvent :=
  [.write true, .call .ok, .write true, .call (.acquired "sha256:a"), .write true, .call .ok,
    .call .ok, .call .ok, .write true, .call .ok, .write true, .call (.started "/run/shop.sock"),
    .write true, .call .ok, .write true, .call .ok, .call .ok, .call .ok, .call .ok, .read true]
    ++ List.replicate 7 .send

/-- The client got its `done`, and not this line of the log. -/
def Misses (s : Followed) (line : LogLine) : Prop :=
  .done ∈ s.stream.sent ∧ line ∈ s.file ∧ .line line ∉ s.stream.sent

instance (s : Followed) (line : LogLine) : Decidable (s.Misses line) :=
  inferInstanceAs (Decidable (_ ∧ _ ∧ _))

/-- The row is `Healthy` before the `HEALTHY` line is written; and a deploy of a git source
that `shop` does not have fails between the poll and the look at the row. -/
theorem log_stream_cuts_off : (∃ s, exec step (shopFollowed .externalImage)
        (promoted ++ [.call .ok, .read true, .row true, .send, .write true]) = some s ∧
      s.Misses ⟨"HEALTHY", .text "deployment promoted"⟩) ∧
    ∃ s, exec step (shopFollowed .git)
        [.write true, .call .ok, .write true, .read true, .send, .send, .read true, .write true,
          .call .ok, .row true, .send] = some s ∧
      s.Misses ⟨"ERROR", .debug .unsupportedGitSource⟩ := by
  decide +kernel

/-- The last line is written before the stream polls again. -/
def followedToEnd : List DeployEvent :=
  promoted ++ [.call .ok, .write true, .read true, .send, .read true, .row true, .send]

/-- ... and all eight lines arrive. -/
theorem log_stream_complete_shop :
    ∃ s, exec step (shopFollowed .externalImage) followedToEnd = some s ∧ s.file.length = 8 ∧
      s.stream.sent = s.file.map .line ++ [.done] ∧ s.pending = [] ∧
      ∃ result, s.task.pc = .done result := by
  refine exists_run (fun s => s.file.length = 8 ∧ .done ∈ s.stream.sent) (by decide +kernel)
    fun s hs hend => ⟨hend.1, ?_⟩
  exact log_stream_complete rfl hs (guarded_of_checked (fun _ _ h => h) (by decide +kernel)) hend.2

end Followed

end Denia.Observability
