/-
  Denia.Observability.LogStream — the two log streams
  (`service_logs_stream` in `src/api/services.rs` and `deployment_log_stream` in
  `src/api/deployments.rs`).

  Each stream is a task that reads the backlog, then polls the file at every tick of its
  interval and sends the lines; the deployment stream also looks at the deployment's row after
  a poll without lines, and returns if the status is terminal.  A task holds one of the 64
  permits of its kind until it returns.  A client that leaves is noticed ONLY by a send.

  Main results: `frees_step` and `overdue_step`, which steps make a task outlive its client by
  two ticks; `exec_ticks_open` and `exec_tick_closes`, a connected deployment stream;
  `log_streams_free_slots_iff`.
-/
import Denia.Deploy.Store
import Denia.Lib.Interleave
import Mathlib.Data.Nat.Find

namespace Denia.Observability

open Deploy (DeploymentStatus)

/-! ## §1. The stream task. -/

/-- The two kinds of streams. -/
inductive StreamKind where
  | service
  | deployment
  deriving DecidableEq

/-- What a client receives, past the keep-alives. -/
inductive SseEvent (L : Type) where
  | line (line : L)
  | done
  deriving DecidableEq

/-- Where a stream task stands. -/
inductive StreamPc (L : Type) where
  /-- Before the backlog is read. -/
  | backlog
  /-- Sending lines: of the backlog (`none`), or of a poll that returned so many. -/
  | send (line : L) (rest : List L) (polled : Option Nat)
  /-- Before `interval.tick()` and the poll that follows. -/
  | waiting
  /-- Before the row is read. -/
  | status
  /-- Before the `done` event is sent. -/
  | done
  | ended

/-- A call of the task, with what it returns. -/
inductive StreamCall (L : Type) where
  /-- The lines of a backlog or a poll; `none` is a read error. -/
  | read (lines : Option (List L))
  /-- `tx.send`, which fails if the client is gone. -/
  | send
  /-- The status in the row; `none` if there is no row or it cannot be read. -/
  | row (status : Option DeploymentStatus)

/-- The statuses that close a deployment stream. -/
def closes : Option DeploymentStatus → Bool
  | some .healthy | some .failed | some .stopped => true
  | _ => false

variable {L : Type}

/-- Behind the last line: a deployment stream looks at the row if the poll was empty. -/
def afterLines (kind : StreamKind) (polled : Option Nat) : StreamPc L :=
  if kind = .deployment ∧ polled = some 0 then .status else .waiting

/-- Send the lines one after the other. -/
def sendPc (kind : StreamKind) (polled : Option Nat) : List L → StreamPc L
  | [] => afterLines kind polled
  | line :: rest => .send line rest polled

/-- One call of a stream task: the event the client gets, and the next counter. -/
def streamNext (kind : StreamKind) (connected : Bool) :
    StreamPc L → StreamCall L → Option (Option (SseEvent L) × StreamPc L)
  | .backlog, .read none => some (none, .waiting)
  | .backlog, .read (some lines) => some (none, sendPc kind none lines)
  -- a poll that fails is one without lines: `continue`, or `unwrap_or_default`
  | .waiting, .read lines =>
    some (none, sendPc kind (some (lines.getD []).length) (lines.getD []))
  | .send line rest polled, .send =>
    if connected then some (some (.line line), sendPc kind polled rest) else some (none, .ended)
  | .status, .row status => some (none, if closes status then .done else .waiting)
  | .done, .send => some (if connected then some .done else none, .ended)
  | _, _ => none

/-! ## §2. Streams and their clients. -/

/-- A stream task with its client. -/
structure Stream (L : Type) where
  kind : StreamKind
  connected : Bool
  pc : StreamPc L
  /-- The ticks begun since the client left. -/
  ticks : Nat
  /-- What the client was sent. -/
  sent : List (SseEvent L)

namespace Stream

/-- A stream that starts. -/
def opened (kind : StreamKind) : Stream L :=
  { kind, connected := true, pc := .backlog, ticks := 0, sent := [] }

/-- At the head of the loop. -/
def isWaiting (s : Stream L) : Bool :=
  match s.pc with
  | .waiting => true
  | _ => false

/-- The task has not returned, so it holds its permit. -/
def holds (s : Stream L) : Bool :=
  match s.pc with
  | .ended => false
  | _ => true

/-- One call. -/
def advance (s : Stream L) (call : StreamCall L) : Option (Stream L) :=
  (streamNext s.kind s.connected s.pc call).map fun (event, pc) =>
    { s with
      pc
      ticks := if s.isWaiting && !s.connected then s.ticks + 1 else s.ticks
      sent := s.sent ++ event.toList }

/-- The client goes away. -/
def disconnect (s : Stream L) : Stream L := { s with connected := false, ticks := 0 }

/-- The client is gone, two ticks have passed since, and the task waits for the next. -/
def overdue (s : Stream L) : Bool := !s.connected && decide (2 ≤ s.ticks) && s.isWaiting

variable {s s' : Stream L} {call : StreamCall L}

theorem advance_eq (h : s.advance call = some s') :
    ∃ event pc, streamNext s.kind s.connected s.pc call = some (event, pc) ∧
      s' = { s with
        pc
        ticks := if s.isWaiting && !s.connected then s.ticks + 1 else s.ticks
        sent := s.sent ++ event.toList } := by
  obtain ⟨⟨event, pc⟩, hnext, heq⟩ := Option.map_eq_some_iff.mp h
  exact ⟨event, pc, hnext, heq.symm⟩

theorem isWaiting_iff : s.isWaiting = true ↔ s.pc = .waiting := by
  unfold isWaiting
  split <;> simp_all

theorem overdue_iff : s.overdue = true ↔ s.connected = false ∧ 2 ≤ s.ticks ∧ s.pc = .waiting := by
  simp only [overdue, Bool.and_eq_true, Bool.not_eq_true', decide_eq_true_eq, isWaiting_iff,
    and_assoc]

/-- **What brings a gone client's task to an end**: at the second tick since the client
left, a service stream has a line to send, and a deployment stream that reads the row
finds a status that closes it. -/
def Frees (s : Stream L) : StreamCall L → Prop
  | .read lines => s.kind = .service → s.pc = .waiting → s.connected = false → 1 ≤ s.ticks →
      lines.getD [] ≠ []
  | .row status => s.connected = false → 2 ≤ s.ticks → closes status = true
  | .send => True

/-- What holds of a stream in a run in which the permits come back. -/
structure InTime (s : Stream L) : Prop where
  notOverdue : s.overdue = false
  backlog_ticks : s.pc = .backlog → s.ticks = 0

theorem inTime_opened (kind : StreamKind) : (opened kind : Stream L).InTime :=
  ⟨rfl, fun _ => rfl⟩

theorem inTime_disconnect : s.disconnect.InTime := by
  refine ⟨?_, fun _ => rfl⟩
  rw [Bool.eq_false_iff]
  intro h
  have hticks : 2 ≤ 0 := (overdue_iff.mp h).2.1
  omega

theorem sendPc_ne_backlog (kind : StreamKind) (polled : Option Nat) (lines : List L) :
    sendPc kind polled lines ≠ .backlog := by
  cases lines with
  | nil =>
    show afterLines kind polled ≠ _
    unfold afterLines
    split <;> simp
  | cons => nofun

theorem streamNext_ne_backlog {kind : StreamKind} {connected : Bool} {pc pc' : StreamPc L}
    {event : Option (SseEvent L)} (h : streamNext kind connected pc call = some (event, pc')) :
    pc' ≠ .backlog := by
  unfold streamNext at h
  split at h
  all_goals try split at h
  all_goals simp only [Option.some.injEq, Prod.mk.injEq, reduceCtorEq] at h
  all_goals obtain ⟨-, h⟩ := h
  all_goals subst h
  all_goals first
    | exact sendPc_ne_backlog _ _ _
    | nofun

/-- **A call that frees** keeps the task in time. -/
theorem frees_step (hs : s.InTime) (hfrees : s.Frees call) (hstep : s.advance call = some s') :
    s'.InTime := by
  obtain ⟨event, pc, hnext, rfl⟩ := advance_eq hstep
  refine ⟨?_, fun hpc => absurd hpc (streamNext_ne_backlog hnext)⟩
  rw [Bool.eq_false_iff]
  intro hoverdue
  obtain ⟨hgone, hticks, hpc⟩ := overdue_iff.mp hoverdue
  dsimp only at hgone hticks hpc
  subst hpc
  rw [hgone] at hnext
  -- which calls lead back to the head of the loop, for a client that is gone
  cases call with
  | send =>
    cases hold : s.pc <;> rw [hold] at hnext <;> cases hnext
  | row status =>
    cases hold : s.pc with
    | status =>
      have hnot : s.isWaiting = false := by rw [isWaiting, hold]
      rw [hnot, Bool.false_and, if_neg Bool.false_ne_true] at hticks
      rw [hold] at hnext
      simp only [streamNext, hfrees hgone hticks, if_true, Option.some.injEq, Prod.mk.injEq,
        reduceCtorEq, and_false] at hnext
    | backlog | send _ _ _ | waiting | done | ended => rw [hold] at hnext; cases hnext
  | read lines =>
    cases hold : s.pc with
    | backlog =>
      have hnot : s.isWaiting = false := by rw [isWaiting, hold]
      rw [hnot, Bool.false_and, if_neg Bool.false_ne_true, hs.backlog_ticks hold] at hticks
      omega
    | waiting =>
      have hwaiting : s.isWaiting = true := isWaiting_iff.mpr hold
      rw [hwaiting, hgone, Bool.not_false, Bool.and_self, if_pos rfl] at hticks
      rw [hold] at hnext
      simp only [streamNext, Option.some.injEq, Prod.mk.injEq] at hnext
      cases hlines : lines.getD [] with
      | cons =>
        rw [hlines] at hnext
        cases hnext.2
      | nil =>
        rw [hlines] at hnext
        cases hkind : s.kind with
        | service => exact hfrees hkind hold hgone (by omega) hlines
        | deployment =>
          rw [hkind] at hnext
          cases hnext.2
    | send _ _ _ | status | done | ended => rw [hold] at hnext; cases hnext

/-- **A call that does not free** leaves the task overdue. -/
theorem overdue_step (hfrees : ¬ s.Frees call) (hstep : s.advance call = some s') :
    s'.overdue = true := by
  obtain ⟨event, pc, hnext, rfl⟩ := advance_eq hstep
  rw [overdue_iff]
  dsimp only
  cases call with
  | send =>
    exact absurd trivial hfrees
  | row status =>
    simp only [Frees, Classical.not_imp, Bool.not_eq_true] at hfrees
    obtain ⟨hgone, hticks, hopen⟩ := hfrees
    cases hold : s.pc with
    | status =>
      have hnot : s.isWaiting = false := by rw [isWaiting, hold]
      rw [hold] at hnext
      simp only [streamNext, hopen, Bool.false_eq_true, if_false, Option.some.injEq,
        Prod.mk.injEq] at hnext
      rw [hnot, Bool.false_and, if_neg Bool.false_ne_true]
      exact ⟨hgone, hticks, hnext.2.symm⟩
    | backlog | send _ _ _ | waiting | done | ended => rw [hold] at hnext; cases hnext
  | read =>
    simp only [Frees, Classical.not_imp, ne_eq, not_not] at hfrees
    obtain ⟨hkind, hold, hgone, hticks, hlines⟩ := hfrees
    have hwaiting : s.isWaiting = true := isWaiting_iff.mpr hold
    rw [hold, hkind] at hnext
    simp only [streamNext, hlines, Option.some.injEq, Prod.mk.injEq] at hnext
    rw [hwaiting, hgone, Bool.not_false, Bool.and_self, if_pos rfl]
    exact ⟨rfl, by omega, hnext.2.symm⟩

/-! ## §3. A deployment stream whose client stays, tick by tick. -/

/-- What the calls of one tick return: the poll, and the row if it is read. -/
structure Tick (L : Type) where
  lines : Option (List L)
  status : Option DeploymentStatus

/-- The calls of the tick: the poll, then a send for each line or a look at the row. -/
def tickCalls (tick : Tick L) : List (StreamCall L) :=
  .read tick.lines :: match tick.lines.getD [] with
    | [] => [.row tick.status]
    | lines => lines.map fun _ => .send

/-- The tick at which the stream closes. -/
def Tick.Closes (tick : Tick L) : Prop := tick.lines.getD [] = [] ∧ closes tick.status = true

/-- A deployment stream at the head of its loop, with its client. -/
structure Follows (s : Stream L) : Prop where
  kind : s.kind = .deployment
  connected : s.connected = true
  pc : s.pc = .waiting

/-- The task gets on, with its client there. -/
def goesOn (s : Stream L) (event : Option (SseEvent L)) (pc : StreamPc L) : Stream L :=
  { s with pc, sent := s.sent ++ event.toList }

theorem advance_connected (hconnected : s.connected = true) {event : Option (SseEvent L)}
    {pc : StreamPc L} (hnext : streamNext s.kind true s.pc call = some (event, pc)) :
    s.advance call = some (s.goesOn event pc) := by
  simp only [advance, goesOn, hconnected, hnext, Bool.not_true, Bool.and_false,
    Bool.false_eq_true, if_false, Option.map_some]

/-- The lines of a poll are sent, and the loop starts again. -/
theorem exec_sends {line : L} {rest : List L} {n : Nat} (hkind : s.kind = .deployment)
    (hconnected : s.connected = true) (hpc : s.pc = .send line rest (some (n + 1))) :
    ∃ t, Lib.exec advance s ((line :: rest).map fun _ => .send) = some t ∧ Follows t := by
  induction rest generalizing s line with
  | nil =>
    have hnext : streamNext s.kind true s.pc .send = some (some (.line line), .waiting) := by
      rw [hpc, hkind]
      rfl
    exact ⟨s.goesOn _ _, Lib.exec_cons_of_eq (advance_connected hconnected hnext) [],
      hkind, hconnected, rfl⟩
  | cons next rest ih =>
    have hnext : streamNext s.kind true s.pc .send
        = some (some (.line line), .send next rest (some (n + 1))) := by
      rw [hpc]
      rfl
    rw [List.map_cons, Lib.exec_cons_of_eq (advance_connected hconnected hnext)]
    exact ih hkind hconnected rfl

/-- A poll without lines leads to the row. -/
theorem advance_emptyPoll (hs : Follows s) {lines : Option (List L)}
    (hlines : lines.getD [] = []) : s.advance (.read lines) = some (s.goesOn none .status) := by
  refine advance_connected hs.connected ?_
  rw [hs.pc, hs.kind, streamNext, hlines]
  rfl

/-- What the row says is whether to go on. -/
theorem advance_row (hs : Follows s) (status : Option DeploymentStatus) :
    (s.goesOn none .status).advance (.row status)
      = some ((s.goesOn none .status).goesOn none (if closes status then .done else .waiting)) :=
  advance_connected (s := s.goesOn none .status) hs.connected rfl

/-- **A tick that does not close** the stream leads back to the head of the loop. -/
theorem exec_tick_open (hs : Follows s) {tick : Tick L} (hopen : ¬ tick.Closes) :
    ∃ t, Lib.exec advance s (tickCalls tick) = some t ∧ Follows t := by
  unfold tickCalls
  cases hlines : tick.lines.getD [] with
  | nil =>
    have hstays : closes tick.status = false :=
      Bool.eq_false_iff.mpr fun h => hopen ⟨hlines, h⟩
    have hrow := advance_row hs tick.status
    rw [hstays] at hrow
    rw [Lib.exec_cons_of_eq (advance_emptyPoll hs hlines)]
    exact ⟨_, Lib.exec_cons_of_eq hrow [], hs.kind, hs.connected, rfl⟩
  | cons line rest =>
    have hnext : streamNext s.kind true s.pc (.read tick.lines)
        = some (none, .send line rest (some (rest.length + 1))) := by
      rw [hs.pc, streamNext, hlines]
      rfl
    rw [Lib.exec_cons_of_eq (advance_connected hs.connected hnext)]
    exact exec_sends hs.kind hs.connected rfl

/-- **The tick that closes** the stream leads to the `done` event. -/
theorem exec_tick_closes (hs : Follows s) {tick : Tick L} (hcloses : tick.Closes) :
    ∃ t, Lib.exec advance s (tickCalls tick ++ [.send]) = some t ∧ t.pc = .ended ∧
      .done ∈ t.sent := by
  obtain ⟨hlines, hstatus⟩ := hcloses
  have hrow := advance_row hs tick.status
  rw [hstatus] at hrow
  have hcalls : tickCalls tick ++ [.send] = [.read tick.lines, .row tick.status, .send] := by
    rw [tickCalls, hlines]
    rfl
  have hsend : ((s.goesOn none .status).goesOn none .done).advance .send
      = some (((s.goesOn none .status).goesOn none .done).goesOn (some .done) .ended) :=
    advance_connected (s := (s.goesOn none .status).goesOn none .done) hs.connected rfl
  rw [hcalls, Lib.exec_cons_of_eq (advance_emptyPoll hs hlines), Lib.exec_cons_of_eq hrow]
  exact ⟨_, Lib.exec_cons_of_eq hsend [], rfl, List.mem_append_right _ List.mem_cons_self⟩

/-- As long as no tick closes it, the stream goes on. -/
theorem exec_ticks_open (hs : Follows s) {ticks : List (Tick L)}
    (hopen : ∀ tick ∈ ticks, ¬ tick.Closes) :
    ∃ t, Lib.exec advance s (ticks.flatMap tickCalls) = some t ∧ Follows t := by
  induction ticks generalizing s with
  | nil => exact ⟨s, rfl, hs⟩
  | cons tick ticks ih =>
    obtain ⟨s1, hs1, hfollows⟩ := exec_tick_open hs (hopen tick List.mem_cons_self)
    obtain ⟨t, ht, htf⟩ := ih hfollows (fun x hx => hopen x (List.mem_cons_of_mem _ hx))
    refine ⟨t, ?_, htf⟩
    rwa [List.flatMap_cons, Lib.exec_append_of_eq hs1]

/-- **When a client gets its `done`**: at the first tick that polls nothing and reads a
status that closes the stream, if there is one. -/
theorem sends_done_iff (hs : Follows s) (history : Nat → Tick L) :
    (∃ n t, Lib.exec advance s (((List.range n).map history).flatMap tickCalls ++ [.send])
        = some t ∧ t.pc = .ended ∧ .done ∈ t.sent) ↔ ∃ n, (history n).Closes := by
  constructor
  · rintro ⟨n, t, hrun, -, -⟩
    by_contra hnone
    have hopen : ∀ tick ∈ (List.range n).map history, ¬ tick.Closes := by
      intro tick htick hcloses
      obtain ⟨k, -, rfl⟩ := List.mem_map.mp htick
      exact hnone ⟨k, hcloses⟩
    obtain ⟨s1, hs1, hfollows⟩ := exec_ticks_open hs hopen
    obtain ⟨s2, hs2, hsend⟩ := Lib.exec_append hrun
    cases hs1.symm.trans hs2
    -- at the head of the loop nothing is sent
    obtain ⟨s3, hstep, -⟩ := Lib.exec_cons hsend
    obtain ⟨event, pc, hnext, -⟩ := advance_eq hstep
    rw [hfollows.pc] at hnext
    cases hnext
  · intro hsome
    classical
    have hfirst := Nat.find_spec hsome
    have hbefore : ∀ tick ∈ (List.range (Nat.find hsome)).map history, ¬ tick.Closes := by
      intro tick htick
      obtain ⟨k, hk, rfl⟩ := List.mem_map.mp htick
      exact Nat.find_min hsome (List.mem_range.mp hk)
    obtain ⟨s1, hs1, hfollows⟩ := exec_ticks_open hs hbefore
    obtain ⟨t, ht, hended⟩ := exec_tick_closes hfollows hfirst
    refine ⟨Nat.find hsome + 1, t, ?_, hended⟩
    rw [List.range_succ, List.map_append, List.flatMap_append, List.append_assoc,
      Lib.exec_append_of_eq hs1, List.map_singleton, List.flatMap_singleton]
    exact ht

end Stream

open Denia.Observability.Stream

/-! ## §4. The server's permits. -/

/-- The stream tasks, in the order in which they were accepted. -/
structure LogServer (L : Type) where
  streams : List (Stream L)

/-- The events of the server. -/
inductive ServerEvent (L : Type) where
  /-- A request for a stream, past the checks of the principal. -/
  | request (kind : StreamKind)
  | disconnect (i : Nat)
  | call (i : Nat) (call : StreamCall L)

namespace LogServer

/-- The permits of `LOG_STREAM_LIMIT` or `DEPLOYMENT_LOG_STREAM_LIMIT` that are taken. -/
def held (kind : StreamKind) (σ : LogServer L) : Nat :=
  (σ.streams.filter fun s => s.kind = kind && s.holds).length

/-- Those taken by tasks whose client has been gone for two ticks. -/
def heldByGone (kind : StreamKind) (σ : LogServer L) : Nat :=
  (σ.streams.filter fun s => s.kind = kind && s.holds && s.overdue).length

/-- One event. -/
def step (σ : LogServer L) : ServerEvent L → Option (LogServer L)
  -- `try_acquire_owned`: without a permit the request is refused
  | .request kind => some (if σ.held kind < 64 then ⟨σ.streams ++ [.opened kind]⟩ else σ)
  | .disconnect i =>
    match σ.streams[i]? with
    | some s => if s.connected then some ⟨σ.streams.set i s.disconnect⟩ else none
    | none => none
  | .call i call =>
    match σ.streams[i]? with
    | some s => (s.advance call).map fun s' => ⟨σ.streams.set i s'⟩
    | none => none

/-- Each call frees the permit of a client that is gone when it has to. -/
def FreesSlot (σ : LogServer L) : ServerEvent L → Prop
  | .call i call => ∀ s, σ.streams[i]? = some s → s.Frees call
  | .request _ | .disconnect _ => True

theorem heldByGone_eq_zero_iff {σ : LogServer L} :
    (∀ kind, σ.heldByGone kind = 0) ↔ ∀ s ∈ σ.streams, s.overdue = false := by
  constructor
  · intro hzero s hs
    rw [Bool.eq_false_iff]
    intro hoverdue
    have hholds : s.holds = true := by
      rw [holds, (overdue_iff.mp hoverdue).2.2]
    have hempty := List.eq_nil_of_length_eq_zero (hzero s.kind)
    have hmem : s ∈ σ.streams.filter fun x => x.kind = s.kind && x.holds && x.overdue := by
      rw [List.mem_filter]
      exact ⟨hs, by simp [hholds, hoverdue]⟩
    simp [hempty] at hmem
  · intro hnone kind
    unfold heldByGone
    rw [List.length_eq_zero_iff, List.filter_eq_nil_iff]
    intro s hs
    simp [hnone s hs]

/-- **One event** that frees keeps every task in time. -/
theorem inTime_step (σ : LogServer L) (event : ServerEvent L) (σ' : LogServer L)
    (hσ : ∀ s ∈ σ.streams, s.InTime) (hfrees : σ.FreesSlot event)
    (hstep : σ.step event = some σ') : ∀ s ∈ σ'.streams, s.InTime := by
  cases event with
  | request kind =>
    cases hstep
    split
    · intro s hs
      rcases List.mem_append.mp hs with hs | hs
      · exact hσ s hs
      · rw [List.mem_singleton.mp hs]
        exact inTime_opened kind
    · exact hσ
  | disconnect =>
    simp only [step] at hstep
    split at hstep
    next s hi =>
      split at hstep <;> cases hstep
      intro t ht
      rcases List.mem_or_eq_of_mem_set ht with ht | ht
      · exact hσ t ht
      · rw [ht]
        exact inTime_disconnect
    next => cases hstep
  | call =>
    simp only [step] at hstep
    split at hstep
    next s hi =>
      obtain ⟨s', hadvance, hset⟩ := Option.map_eq_some_iff.mp hstep
      subst hset
      intro t ht
      rcases List.mem_or_eq_of_mem_set ht with ht | ht
      · exact hσ t ht
      · rw [ht]
        exact frees_step (hσ s (List.mem_of_getElem? hi)) (hfrees s hi) hadvance
    next => cases hstep

/-- An event that does not free leaves a permit with a client that is gone. -/
theorem heldByGone_step (σ : LogServer L) (event : ServerEvent L) (σ' : LogServer L)
    (hfrees : ¬ σ.FreesSlot event) (hstep : σ.step event = some σ') :
    ¬ ∀ kind, σ'.heldByGone kind = 0 := by
  rw [heldByGone_eq_zero_iff]
  intro hnone
  cases event with
  | request => exact hfrees trivial
  | disconnect => exact hfrees trivial
  | call i =>
    simp only [FreesSlot, not_forall] at hfrees
    obtain ⟨s, hi, hnot⟩ := hfrees
    simp only [step, hi] at hstep
    obtain ⟨s', hadvance, hset⟩ := Option.map_eq_some_iff.mp hstep
    subst hset
    have hlt : i < σ.streams.length := (List.getElem?_eq_some_iff.mp hi).1
    have hmem : s' ∈ σ.streams.set i s' := List.mem_set hlt s'
    have hoverdue := overdue_step hnot hadvance
    simp [hnone s' hmem] at hoverdue

/-- **When log streams give their slots back**, both ways.  In a run of the server no
permit is ever held by a task whose client has been gone for two ticks exactly if at the
second tick since its client left every service stream has a line to send, and every
deployment stream has one or reads `Healthy`, `Failed` or `Stopped`.  And a deployment
stream whose client stays sends `done` and ends exactly if some tick polls nothing and
reads one of the three. -/
theorem log_streams_free_slots_iff {events : List (ServerEvent L)} {σ : LogServer L}
    (hrun : Lib.exec step ⟨[]⟩ events = some σ) :
    ((∀ before after u, events = before ++ after → Lib.exec step ⟨[]⟩ before = some u →
        ∀ kind, u.heldByGone kind = 0) ↔ Lib.Guarded step FreesSlot ⟨[]⟩ events) ∧
    ∀ (s : Stream L) (history : Nat → Stream.Tick L), s.Follows →
      ((∃ n t, Lib.exec advance s
          (((List.range n).map history).flatMap tickCalls ++ [.send]) = some t ∧
          t.pc = .ended ∧ .done ∈ t.sent) ↔ ∃ n, (history n).Closes) := by
  refine ⟨?_, fun s history hs => sends_done_iff hs history⟩
  refine Lib.guarded_iff_exec inTime_step
    (fun σ event σ' _ => heldByGone_step σ event σ') ?_ ?_ hrun
  · intro σ hσ
    exact heldByGone_eq_zero_iff.mpr fun s hs => (hσ s hs).notOverdue
  · intro s hs
    cases hs

/-- A client opens a stream of a quiet service and leaves; two ticks go by. -/
def quietVisit (i : Nat) : List (ServerEvent String) :=
  [.request .service, .call i (.read (some [])), .disconnect i, .call i (.read (some [])),
    .call i (.read (some []))]

/-- The deployment was replaced, and its log does not grow any more. -/
def replacedTick : Stream.Tick String := ⟨some [], some .inactive⟩

/-- Sixty-four clients that have left a quiet service hold every permit, and the next one
is refused; and the stream of a deployment that is `Inactive` goes on for as many ticks as
its client stays. -/
theorem log_streams_keep_slots : (∃ σ : LogServer String,
      Lib.exec step ⟨[]⟩ ((List.range 64).flatMap quietVisit) = some σ ∧
        σ.heldByGone .service = 64 ∧ σ.step (.request .service) = some σ) ∧
    ∀ n, ∃ t, Lib.exec advance ((opened .deployment).goesOn none .waiting)
      ((List.replicate n replacedTick).flatMap tickCalls) = some t ∧ t.Follows := by
  refine ⟨?_, fun n => ?_⟩
  · refine Lib.exists_run (fun σ => σ.heldByGone .service = 64 ∧ σ.held .service = 64)
      (by decide +kernel) fun σ _ hend => ⟨hend.1, ?_⟩
    rw [step, hend.2, if_neg (Nat.lt_irrefl 64)]
  · refine exec_ticks_open ⟨rfl, rfl, rfl⟩ fun tick htick hcloses => ?_
    rw [List.eq_of_mem_replicate htick] at hcloses
    cases hcloses.2

/-- Every read returns a line. -/
def lively : ServerEvent String → Bool
  | .call _ (.read lines) => lines.getD [] != []
  | .call _ (.row _) => false
  | .call _ .send | .request _ | .disconnect _ => true

theorem freesSlot_of_lively (σ : LogServer String) (event : ServerEvent String)
    (h : lively event = true) : σ.FreesSlot event := by
  cases event with
  | request => trivial
  | disconnect => trivial
  | call i call =>
    intro s _
    cases call with
    | read => exact fun _ _ _ _ => bne_iff_ne.mp h
    | send => trivial
    | row => cases h

/-- A client leaves a service that logs a line at every tick. -/
def livelyVisit : List (ServerEvent String) :=
  [.request .service, .call 0 (.read (some ["up"])), .call 0 .send, .disconnect 0,
    .call 0 (.read (some ["bye"])), .call 0 .send]

/-- ... and its permit is back. -/
theorem log_streams_free_slots_lively :
    ∃ σ, Lib.exec step ⟨[]⟩ livelyVisit = some σ ∧ σ.held .service = 0 ∧
      ∀ before after u, livelyVisit = before ++ after → Lib.exec step ⟨[]⟩ before = some u →
        ∀ kind, u.heldByGone kind = 0 := by
  refine Lib.exists_run (fun σ => σ.held .service = 0) (by decide +kernel) fun σ hσ hheld => ?_
  have hguard : Lib.Guarded step FreesSlot ⟨[]⟩ livelyVisit :=
    Lib.guarded_of_checked freesSlot_of_lively
      (by decide +kernel : Lib.checked step (fun _ event => lively event) ⟨[]⟩ livelyVisit = true)
  exact ⟨hheld, (log_streams_free_slots_iff hσ).1.mpr hguard⟩

end LogServer

end Denia.Observability
