/-
  Denia.Runtime.Start — what `LinuxRuntime::start` does to the host's directories
  (`plan`, `prepare`, `cleanup`, `reap_exited_children` and `start` in
  `src/runtime/linux.rs`).

  A plan has three directories: the replica directory under the runtime directory
  and the cgroup directory, both at `service/deployment/replica`, and a socket
  directory named by a HASH of the same three ids.  The table of tracked children is keyed by
  service and replica index only, so a start can replace a child of its own deployment; the
  clean-up of the replaced child then runs AFTER the new child's directories were made.

  Main results: `start_runtime`, the table is that of `Denia.Runtime.Tracked`;
  `start_keeps_directories_iff`.
-/
import Denia.Runtime.Tracked
import Denia.Lib.AssocMap
import Mathlib.Data.Finset.Disjoint
import Mathlib.Data.Finset.SDiff

namespace Denia

/-! ## §1. Plans and their directories. -/

/-- A directory of one replica.  The three families lie under different roots: the
runtime directory, the cgroup root and the `sock` directory. -/
inductive ReplicaPath where
  | replica (serviceId deploymentId : Uuid) (replicaIndex : Nat)
  | cgroup (serviceId deploymentId : Uuid) (replicaIndex : Nat)
  | socket (name : Nat)
  deriving DecidableEq

/-- `LinuxRuntimePlan`, past what the child process is told. -/
structure LinuxRuntimePlan where
  socketDir : ReplicaPath
  cgroupPath : ReplicaPath
  replicaDir : ReplicaPath

/-- `hasher.finish()` of `service:deployment:replica`: any function of the three ids,
as `DefaultHasher` is not collision resistant. -/
abbrev SocketHash := Uuid → Uuid → Nat → Nat

/-- `LinuxRuntime::plan`, for the instance and deployment of a request that it
accepts. -/
def linuxPlan (hash : SocketHash) (instanceId : RuntimeInstanceId) (deploymentId : Uuid) :
    LinuxRuntimePlan :=
  { socketDir :=
      .socket (hash instanceId.serviceId deploymentId instanceId.replicaIndex)
    cgroupPath := .cgroup instanceId.serviceId deploymentId instanceId.replicaIndex
    replicaDir := .replica instanceId.serviceId deploymentId instanceId.replicaIndex }

/-- The directories `prepare` makes and `cleanup` removes. -/
def LinuxRuntimePlan.dirs (plan : LinuxRuntimePlan) : Finset ReplicaPath :=
  {plan.socketDir, plan.cgroupPath, plan.replicaDir}

/-- Two plans of ONE instance share a directory exactly when they are of one
deployment or their hashes collide, and the first is a case of the second. -/
theorem disjoint_dirs_iff (hash : SocketHash) (instanceId : RuntimeInstanceId)
    (deployment other : Uuid) :
    Disjoint (linuxPlan hash instanceId deployment).dirs (linuxPlan hash instanceId other).dirs
      ↔ other ≠ deployment ∧
        hash instanceId.serviceId other instanceId.replicaIndex
          ≠ hash instanceId.serviceId deployment instanceId.replicaIndex := by
  rw [Finset.disjoint_left]
  constructor
  · intro hdisjoint
    have hname : hash instanceId.serviceId other instanceId.replicaIndex
        ≠ hash instanceId.serviceId deployment instanceId.replicaIndex := by
      intro heq
      refine hdisjoint (a := (linuxPlan hash instanceId deployment).socketDir)
        (Finset.mem_insert_self _ _) ?_
      rw [LinuxRuntimePlan.dirs, Finset.mem_insert]
      exact .inl (congrArg ReplicaPath.socket heq.symm)
    exact ⟨fun h => hname (by rw [h]), hname⟩
  · intro h dir hdir hshared
    obtain ⟨hdeployment, hname⟩ := h
    simp only [LinuxRuntimePlan.dirs, linuxPlan, Finset.mem_insert, Finset.mem_singleton]
      at hdir hshared
    rcases hdir with hdir | hdir | hdir <;> subst hdir
    · simp only [ReplicaPath.socket.injEq, reduceCtorEq, or_false] at hshared
      exact hname hshared.symm
    · simp only [ReplicaPath.cgroup.injEq, reduceCtorEq, or_false, false_or] at hshared
      exact hdeployment hshared.2.1.symm
    · simp only [ReplicaPath.replica.injEq, reduceCtorEq, false_or] at hshared
      exact hdeployment hshared.2.1.symm

/-! ## §2. The host and `start`. -/

/-- The runtime's table and the replica directories that exist. -/
structure LinuxHost where
  runtime : Runtime
  dirs : Finset ReplicaPath

namespace LinuxHost

/-- `prepare`: the directories of the plan exist. -/
def prepare (plan : LinuxRuntimePlan) (h : LinuxHost) : LinuxHost :=
  { h with dirs := h.dirs ∪ plan.dirs }

/-- `cleanup`: they do not. -/
def cleanup (plan : LinuxRuntimePlan) (h : LinuxHost) : LinuxHost :=
  { h with dirs := h.dirs \ plan.dirs }

/-- `reap_exited_children`: the children whose process has exited leave the table,
and then the directories of each are removed. -/
def reapExitedChildren (hash : SocketHash) (exited : RuntimeInstanceId → Bool) (h : LinuxHost) :
    LinuxHost :=
  let gone := h.runtime.children.entries.filter fun e => exited e.1
  gone.foldl (fun h e => h.cleanup (linuxPlan hash e.1 e.2.deploymentId))
    { h with runtime := ⟨Lib.restrict h.runtime.children fun key => !exited key⟩ }

/-- Where a `start` can fail. -/
inductive StartFailure where
  /-- `reap_exited_children` meets a poisoned lock or an error of `try_wait`. -/
  | reaping
  /-- `plan` refuses the request. -/
  | planning
  /-- `prepare` fails, with some of the directories made. -/
  | preparing
  | logPath
  | spawning
  /-- The spawning task itself is lost: this `?` returns without a clean-up. -/
  | joining
  /-- The child's socket does not come up. -/
  | socket
  | lockPoisoned

/-- `start`.  The host says which children have exited by now and whether the child is
spawned and binds its socket, with the path of that. -/
def start (hash : SocketHash) (exited : RuntimeInstanceId → Bool) (request : RuntimeStartRequest)
    (answer : Except StartFailure String) (h : LinuxHost) :
    LinuxHost × Except StartFailure RuntimeStatus :=
  let plan := linuxPlan hash request.instanceId request.deploymentId
  let reaped := h.reapExitedChildren hash exited
  match answer with
  | .error .reaping => (h, .error .reaping)
  | .error .planning => (reaped, .error .planning)
  | .error .joining => (reaped.prepare plan, .error .joining)
  | .error failure => ((reaped.prepare plan).cleanup plan, .error failure)
  | .ok socketPath =>
    let prepared := reaped.prepare plan
    -- `children.insert` hands back the child that was under the key
    let replacedChild := prepared.runtime.children.lookup request.instanceId
    let inserted := { prepared with runtime := prepared.runtime.started request socketPath }
    let final := match replacedChild with
      | some replaced =>
        inserted.cleanup (linuxPlan hash request.instanceId replaced.deploymentId)
      | none => inserted
    (final, .ok {
      serviceId := request.serviceId
      serviceName := request.serviceName
      deploymentId := request.deploymentId
      socketPath
      replicaIndex := request.replicaIndex })

variable {hash : SocketHash} {exited : RuntimeInstanceId → Bool} {request : RuntimeStartRequest}
  {answer : Except StartFailure String} {h h' : LinuxHost} {status : RuntimeStatus}

/-- Cleaning up after the reaped children touches directories only. -/
theorem runtime_cleanups (gone : List (Sigma fun _ : RuntimeInstanceId => TrackedChild))
    (h : LinuxHost) :
    (gone.foldl (fun h e => h.cleanup (linuxPlan hash e.1 e.2.deploymentId)) h).runtime
      = h.runtime := by
  induction gone generalizing h with
  | nil => rfl
  | cons e gone ih => exact ih _

/-- After the reaping exactly the children that have not exited are tracked. -/
theorem lookup_reapExitedChildren (h : LinuxHost) (key : RuntimeInstanceId) :
    (h.reapExitedChildren hash exited).runtime.children.lookup key
      = if exited key = true then none else h.runtime.children.lookup key := by
  unfold reapExitedChildren
  rw [runtime_cleanups, Lib.lookup_restrict]
  cases exited key <;> rfl

/-- The child a successful start replaces: the one under its key, unless it has exited. -/
def replaced (exited : RuntimeInstanceId → Bool) (instanceId : RuntimeInstanceId)
    (h : LinuxHost) : Option TrackedChild :=
  if exited instanceId = true then none else h.runtime.children.lookup instanceId

/-- **Spec of a successful `start`**: the table gains the child over those that have
not exited; the plan's directories are made, and THEN those of the replaced child are
removed. -/
theorem start_ok (hstart : h.start hash exited request answer = (h', .ok status)) : ∃ socketPath,
      h'.runtime = (h.reapExitedChildren hash exited).runtime.started request socketPath ∧
      h'.dirs = ((h.reapExitedChildren hash exited).dirs
          ∪ (linuxPlan hash request.instanceId request.deploymentId).dirs)
        \ (match h.replaced exited request.instanceId with
          | some child => (linuxPlan hash request.instanceId child.deploymentId).dirs
          | none => ∅) := by
  cases answer with
  | error failure => cases failure <;> cases hstart
  | ok socketPath =>
    refine ⟨socketPath, ?_⟩
    injection hstart with hfinal _
    have hreplaced : ((h.reapExitedChildren hash exited).prepare
        (linuxPlan hash request.instanceId request.deploymentId)).runtime.children.lookup
          request.instanceId = h.replaced exited request.instanceId :=
      lookup_reapExitedChildren h request.instanceId
    rw [hreplaced] at hfinal
    subst hfinal
    cases h.replaced exited request.instanceId with
    | none => exact ⟨rfl, (Finset.sdiff_empty).symm⟩
    | some => exact ⟨rfl, rfl⟩

/-- **The table**: a start that fails leaves the children that have not exited (all of
them, if it fails while it reaps); one that succeeds puts its child over them. -/
theorem start_runtime (h : LinuxHost) : (h.start hash exited request answer).1.runtime
      = match answer with
        | .error .reaping => h.runtime
        | .error _ => (h.reapExitedChildren hash exited).runtime
        | .ok socketPath =>
          (h.reapExitedChildren hash exited).runtime.started request socketPath := by
  cases answer with
  | error failure => cases failure <;> rfl
  | ok =>
    simp only [start]
    split <;> rfl

/-! ## §3. What a start leaves of its own directories. -/

/-- **When a start keeps what it returns**: every directory of the returned instance's
plan exists after `start` has returned `Ok` exactly when the child tracked under the
same key, if there is one that has not exited, is of ANOTHER deployment and does not
have the same socket directory by a collision of the hash. -/
theorem start_keeps_directories_iff
    (hstart : h.start hash exited request answer = (h', .ok status)) :
    (linuxPlan hash request.instanceId request.deploymentId).dirs ⊆ h'.dirs ↔
      ∀ child, h.runtime.children.lookup request.instanceId = some child →
        exited request.instanceId = false →
        child.deploymentId ≠ request.deploymentId ∧
          hash request.serviceId child.deploymentId request.replicaIndex
            ≠ hash request.serviceId request.deploymentId request.replicaIndex := by
  obtain ⟨socketPath, -, hdirs⟩ := start_ok hstart
  rw [hdirs, Finset.subset_sdiff]
  have hmade : (linuxPlan hash request.instanceId request.deploymentId).dirs
      ⊆ (h.reapExitedChildren hash exited).dirs
        ∪ (linuxPlan hash request.instanceId request.deploymentId).dirs :=
    Finset.subset_union_right
  constructor
  · intro hkept child hchild halive
    have hreplaced : h.replaced exited request.instanceId = some child := by
      rwa [replaced, if_neg (by rw [halive]; exact Bool.false_ne_true)]
    rw [hreplaced] at hkept
    exact (disjoint_dirs_iff hash request.instanceId _ _).mp hkept.2
  · intro hother
    refine ⟨hmade, ?_⟩
    cases hreplaced : h.replaced exited request.instanceId with
    | none => exact Finset.disjoint_empty_right _
    | some child =>
      rw [replaced] at hreplaced
      split at hreplaced
      · cases hreplaced
      next halive =>
        exact (disjoint_dirs_iff hash request.instanceId _ _).mpr
          (hother child hreplaced (Bool.eq_false_iff.mpr halive))

/-! ### A second start of one replica -/

/-- A replica of service `1`, deployment `7`. -/
def replicaRequest : RuntimeStartRequest :=
  { serviceName := "web", serviceId := 1, deploymentId := 7, artifact := "sha256:aa",
    internalPort := 8080, cpuMillis := 100, memoryBytes := 1024, env := [], replicaIndex := 0 }

/-- A hash without collisions among the ids used here. -/
def smallHash : SocketHash := fun service deployment index =>
  service * 10000 + deployment * 100 + index

/-- Nothing runs. -/
def emptyHost : LinuxHost := ⟨⟨∅⟩, ∅⟩

/-- The host after one start of `replicaRequest`. -/
def startedOnce : LinuxHost :=
  (emptyHost.start smallHash (fun _ => false) replicaRequest (.ok "service.sock")).1

/-- **A restart destroys what it returns**: the replica runs with its three directories;
it is started again, as `Ok`, and none of them is left. -/
theorem second_start_removes_directories :
    (linuxPlan smallHash replicaRequest.instanceId 7).dirs ⊆ startedOnce.dirs ∧
      (startedOnce.start smallHash (fun _ => false) replicaRequest (.ok "service.sock")).2.toBool
        = true ∧
      (startedOnce.start smallHash (fun _ => false) replicaRequest (.ok "service.sock")).1.dirs
        = ∅ := by
  decide +kernel

/-- A start that replaces the child of an older deployment keeps its directories. -/
theorem start_keeps_directories_next : (linuxPlan smallHash replicaRequest.instanceId 8).dirs
      ⊆ (startedOnce.start smallHash (fun _ => false) { replicaRequest with deploymentId := 8 }
          (.ok "service.sock")).1.dirs := by
  have hstart : startedOnce.start smallHash (fun _ => false)
      { replicaRequest with deploymentId := 8 } (.ok "service.sock")
      = ((startedOnce.start smallHash (fun _ => false) { replicaRequest with deploymentId := 8 }
          (.ok "service.sock")).1, .ok ⟨1, "web", 8, "service.sock", 0⟩) := rfl
  refine (start_keeps_directories_iff hstart).mpr ?_
  intro child hchild _
  have hseven : startedOnce.runtime.children.lookup replicaRequest.instanceId
      = some ⟨"web", 7, "service.sock"⟩ := by decide +kernel
  have heq : some child = some ⟨"web", 7, "service.sock"⟩ := hchild.symm.trans hseven
  cases heq
  decide

end LinuxHost

end Denia
