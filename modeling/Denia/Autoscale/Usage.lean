/-
  Denia.Autoscale.Usage — the usage sampler of the control loop (`src/autoscale/usage.rs`).

  CPU use is a difference of two readings, so ONE sampler remembers the last reading of each
  replica of all services.  Times are in microseconds; `max_mem_pct` and `replica_count`
  have no reader and are left out.

  Main results: `remembers_iff`, what the next reading of a replica is compared with;
  `tickDecision_outage`, a tick whose readings all fail.
-/
import Denia.Autoscale.Controller

namespace Denia.Autoscale

open Lib

/-- `cpu_pct`. -/
def cpuPct (prevUsec curUsec windowUs cpuMillis : Nat) : Nat :=
  if windowUs = 0 ∨ cpuMillis = 0 then 0
  else
    let denom := min (windowUs * cpuMillis) u64Max
    if denom = 0 then 0 else asU32 (min ((curUsec - prevUsec) * 100000) u64Max / denom)

/-- `ServiceUsage::aggregate`. -/
def ServiceUsage.aggregate (perReplica : List (Nat × Nat)) : ServiceUsage :=
  let n := perReplica.length
  if n = 0 then ⟨0, 0, 0⟩
  else ⟨asU32 ((perReplica.map Prod.fst).sum / n), asU32 ((perReplica.map Prod.snd).sum / n), n⟩

/-- What the cgroup files of a replica say. -/
structure CgroupSnapshot where
  cpuUsageUsec : Nat
  memoryCurrentBytes : Nat

/-- The last reading of a replica, and whose it is. -/
structure PrevSample where
  serviceId : Uuid
  cpuUsageUsec : Nat
  sampledAt : Nat
  deriving DecidableEq

/-- The last readings by replica id. -/
abbrev UsageSampler := AList fun _ : Uuid => PrevSample

/-- A call of `sample`, for what the registry has of a service (`CgroupUsageSource::usage`). -/
structure Sampling where
  now : Nat
  registry : ReplicaRegistry
  serviceId : Uuid
  read : Replica → Option CgroupSnapshot
  limits : ResourceLimits

namespace Sampling

variable (t : Sampling)

/-- The replicas that are read. -/
def healthy : List Replica :=
  (t.registry.replicasOf t.serviceId).filter (·.state = .healthy)

/-- What is remembered of a replica, if it can be read. -/
def taken (r : Replica) : Option PrevSample :=
  (t.read r).map fun snap => ⟨r.serviceId, snap.cpuUsageUsec, t.now⟩

/-- The loop of `sample`, for one replica. -/
def sampleReplica (acc : UsageSampler × List (Nat × Nat)) (r : Replica) :
    UsageSampler × List (Nat × Nat) :=
  match t.read r with
  | none => acc
  | some snap =>
      let cpu := match acc.1.lookup r.id with
        | some prev => cpuPct prev.cpuUsageUsec snap.cpuUsageUsec (t.now - prev.sampledAt)
            t.limits.cpuMillis
        | none => 0
      -- `checked_div`: a limit of 0 gives 0
      let mem := asU32 (min (snap.memoryCurrentBytes * 100) u64Max / t.limits.memoryBytes)
      (acc.1.insert r.id ⟨r.serviceId, snap.cpuUsageUsec, t.now⟩, acc.2 ++ [(cpu, mem)])

/-- `UsageSampler::sample`. -/
def sample (prev : UsageSampler) : UsageSampler × ServiceUsage :=
  let (next, pairs) := t.healthy.foldl t.sampleReplica (prev, [])
  let kept := match t.healthy.getLast? with
    | none => next
    | some last => retain next fun id p =>
        p.serviceId ≠ last.serviceId || t.healthy.any (·.id = id)
  (kept, .aggregate pairs)

/-- The replica is read. -/
def Reads (id : Uuid) (p : PrevSample) : Prop :=
  ∃ r ∈ t.healthy, r.id = id ∧ t.taken r = some p

/-- The replica is neither read nor evicted. -/
def Keeps (id serviceId : Uuid) : Prop :=
  (∀ r ∈ t.healthy, r.id = id → t.taken r = none) ∧
    (t.healthy ≠ [] → t.serviceId = serviceId → ∃ r ∈ t.healthy, r.id = id)

instance (id : Uuid) (p : PrevSample) : Decidable (t.Reads id p) :=
  inferInstanceAs (Decidable (∃ r ∈ t.healthy, _ ∧ _))

instance (id serviceId : Uuid) : Decidable (t.Keeps id serviceId) :=
  inferInstanceAs (Decidable ((∀ r ∈ t.healthy, _ → _) ∧ (_ → _ → ∃ r ∈ t.healthy, _)))

variable {t} {prev : UsageSampler} {id : Uuid} {p : PrevSample}

theorem healthy_ids_nodup : (t.healthy.map (·.id)).Nodup :=
  t.registry.ids_nodup.sublist ((List.filter_sublist.trans List.filter_sublist).map _)

theorem healthy_owned {r : Replica} (hr : r ∈ t.healthy) : r.serviceId = t.serviceId :=
  (ReplicaRegistry.mem_replicasOf.mp (List.mem_filter.mp hr).1).2

/-- What the loop remembers does not depend on the percentages. -/
theorem loop_fst (rs : List Replica) (acc : UsageSampler × List (Nat × Nat)) :
    (rs.foldl t.sampleReplica acc).1 = insertAll (·.id) t.taken rs acc.1 := by
  induction rs generalizing acc with
  | nil => rfl
  | cons r rs ih =>
    have hrow : (t.sampleReplica acc r).1 = insertRow (·.id) t.taken acc.1 r := by
      unfold sampleReplica insertRow taken
      cases t.read r <;> rfl
    rw [List.foldl_cons, ih, hrow]
    rfl

theorem loop_outage {rs : List Replica} (h : ∀ r ∈ rs, t.read r = none)
    (acc : UsageSampler × List (Nat × Nat)) : rs.foldl t.sampleReplica acc = acc := by
  induction rs with
  | nil => rfl
  | cons r rs ih =>
    obtain ⟨hr, hrest⟩ := List.forall_mem_cons.mp h
    have hskip : t.sampleReplica acc r = acc := by
      unfold sampleReplica
      rw [hr]
    rw [List.foldl_cons, hskip, ih hrest]

/-- **One sampling**: a reading is new, or it was there and is kept. -/
theorem lookup_sample : (t.sample prev).1.lookup id = some p ↔
      t.Reads id p ∨ (t.Keeps id p.serviceId ∧ prev.lookup id = some p) := by
  have hloop := lookup_insertAll (f := t.taken) t.healthy_ids_nodup prev id p
  unfold sample Keeps Reads
  cases hlast : t.healthy.getLast? with
  | none =>
    have hnil : t.healthy = [] := List.getLast?_eq_none_iff.mp hlast
    simp [hnil]
  | some last =>
    have hmem := List.mem_of_getLast? hlast
    have hservice : last.serviceId = t.serviceId := healthy_owned hmem
    simp only [lookup_retain, loop_fst, hloop, hservice, Bool.or_eq_true, List.any_eq_true,
      decide_eq_true_eq]
    grind

end Sampling

/-- The sampler after a history of samplings, the last one first. -/
def sampledAfter : List Sampling → UsageSampler
  | [] => ∅
  | t :: earlier => (t.sample (sampledAfter earlier)).1

/-- **What the sampler remembers** of a replica, after any samplings of any services. -/
theorem remembers_iff (history : List Sampling) (id : Uuid) (p : PrevSample) :
    (sampledAfter history).lookup id = some p ↔
      ∃ later t earlier, history = later ++ t :: earlier ∧ t.Reads id p ∧
        ∀ u ∈ later, u.Keeps id p.serviceId := by
  induction history with
  | nil => simp [sampledAfter]
  | cons t earlier ih =>
    rw [sampledAfter, Sampling.lookup_sample, ih]
    constructor
    · rintro (hread | ⟨hkeeps, later, u, before, rfl, hread, hlater⟩)
      · exact ⟨[], t, earlier, rfl, hread, by simp⟩
      · exact ⟨t :: later, u, before, rfl, hread, by simpa using ⟨hkeeps, hlater⟩⟩
    · rintro ⟨_ | ⟨v, later⟩, u, before, heq, hread, hlater⟩ <;> cases heq
      · exact .inl hread
      · have hlater := List.forall_mem_cons.mp hlater
        exact .inr ⟨hlater.1, later, u, before, rfl, hread, hlater.2⟩

/-- A replica of each of two services; later the first service has another one. -/
def twoServices : ReplicaRegistry × ReplicaRegistry :=
  let both := (((ReplicaRegistry.empty.add 7 70 0 "a.sock" ⟨500, 64⟩).1.setState 1 .healthy).add
    8 80 0 "b.sock" ⟨500, 64⟩).1.setState 2 .healthy
  (both, ((both.remove 1).add 7 71 0 "c.sock" ⟨500, 64⟩).1.setState 3 .healthy)

/-- Service 7 and service 8 are sampled, then service 7 with its new replica. -/
def rolledOver : List Sampling :=
  let read := fun r : Replica => some ⟨1000 * r.id, 32⟩
  [⟨20, twoServices.2, 7, read, ⟨500, 64⟩⟩, ⟨11, twoServices.1, 8, read, ⟨500, 64⟩⟩,
    ⟨10, twoServices.1, 7, read, ⟨500, 64⟩⟩]

/-- The replica that was rolled over is forgotten, that of the other service is not. -/
theorem remembers_rolledOver : (sampledAfter (rolledOver.drop 1)).lookup 1 = some ⟨7, 1000, 10⟩ ∧
      (sampledAfter rolledOver).lookup 1 = none ∧
      (sampledAfter rolledOver).lookup 2 = some ⟨8, 2000, 11⟩ := by
  refine ⟨by decide +kernel, by decide +kernel, (remembers_iff rolledOver 2 _).mpr ?_⟩
  refine ⟨[_], _, [_], rfl, by decide +kernel, ?_⟩
  rw [List.forall_mem_singleton]
  decide +kernel

/-! ## The decision of a tick. -/

/-- The sampling that a tick makes for a service. -/
def Controller.sampling (c : Controller) (ms : ManagedService) (now : Nat)
    (read : Replica → Option CgroupSnapshot) : Sampling :=
  ⟨now, c.registry, ms.serviceId, read, ms.limits⟩

/-- **An outage of the metrics is no idle service**: where the usage of a tick is the sampler's
and no healthy replica can be read, the count is held, whatever was read before. -/
theorem tickDecision_outage {env : Env} {c : Controller} {ms : ManagedService} {nowS start : Nat}
    {now : Nat} {read : Replica → Option CgroupSnapshot} {prev : UsageSampler}
    (husage : env.usage c.calls ms.serviceId = ((c.sampling ms now read).sample prev).2)
    (hstart : start ≠ 0) (houtage : ∀ r ∈ (c.sampling ms now read).healthy, read r = none) :
    (c.tickDecision env ms nowS start).2 = .hold start := by
  have hlive : ((c.sampling ms now read).sample prev).2 = ⟨0, 0, 0⟩ := by
    unfold Sampling.sample
    rw [Sampling.loop_outage houtage]
    rfl
  unfold Controller.tickDecision
  rw [if_neg hstart, husage, hlive]
  rfl

end Denia.Autoscale
