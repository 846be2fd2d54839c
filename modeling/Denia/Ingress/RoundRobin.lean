/-
  Denia.Ingress.RoundRobin — how often `next_socket` returns each endpoint of a pool
  (`src/ingress/pingora/state.rs`).

  The cursor stands in the list of ALL endpoints, the unhealthy ones included.  Read from the
  cursor on, the healthy endpoints are a queue (`ServicePool.inTurn`): every call takes the
  first and puts it at the end, so an endpoint's place in the queue says how often it is
  returned.

  Main results: `count_serve`, the calls by the place in the queue; `round_robin_exact`.
-/
import Denia.Ingress.Pool

namespace Denia

open Lib

/-! ## §1. Calls on a pool. -/

/-- A call on the pool of one service; `add_replica_with_health` may add a healthy endpoint. -/
inductive PoolCall where
  | addReplica (endpoint : ReplicaEndpoint)
  | setReplicaHealthy (replicaId : Uuid) (healthy : Bool)
  | removeReplica (replicaId : Uuid)
  | nextSocket (now : Nat)

/-- The pool after the call. -/
def PoolCall.run (p : ServicePool) : PoolCall → ServicePool
  | .addReplica endpoint => p.add endpoint
  | .setReplicaHealthy replicaId healthy => p.setHealthy replicaId healthy
  | .removeReplica replicaId => p.remove replicaId
  | .nextSocket now =>
      match p.nextSocket with
      | none => p
      | some (p', _) => { p' with lastActivity := now }

namespace ServicePool

/-- The sockets that `k` calls of `next_socket` return; the list ends with the first `None`. -/
def nextSockets : Nat → ServicePool → List String
  | 0, _ => []
  | k + 1, p =>
      match p.nextSocket with
      | none => []
      | some (p', socket) => socket :: p'.nextSockets k

/-- The endpoints whose sockets they are. -/
def serve : Nat → ServicePool → List ReplicaEndpoint
  | 0, _ => []
  | k + 1, p =>
      match p.nextEndpoint with
      | none => []
      | some (p', e) => e :: p'.serve k

variable {p : ServicePool} {e : ReplicaEndpoint}

theorem nextSockets_eq (k : Nat) (p : ServicePool) :
    p.nextSockets k = (p.serve k).map (·.socketPath) := by
  induction k generalizing p with
  | zero => rfl
  | succ k ih =>
    rw [nextSockets, serve, nextSocket_eq]
    cases p.nextEndpoint with
    | none => rfl
    | some => simp [ih]

/-! ## §2. The queue. -/

theorem length_inTurn (p : ServicePool) : p.inTurn.length = p.healthyCount :=
  ((List.rotate_perm _ _).filter _).length_eq

/-- **How often an endpoint is served**, by the numbers of those before and after it in turn. -/
theorem count_serve (k : Nat) {before after : List ReplicaEndpoint}
    (hturn : p.inTurn = before ++ e :: after) (hbefore : e ∉ before) (hafter : e ∉ after) :
    (p.serve k).count e = (k + after.length) / (before.length + after.length + 1) := by
  induction k generalizing p before after with
  | zero =>
    symm
    exact Nat.div_eq_of_lt (by omega)
  | succ k ih =>
    rcases nextEndpoint_spec p with ⟨-, hnone⟩ | ⟨p', x, rest, hnext, -, hfirst, hlast⟩
    · simp [hnone] at hturn
    · have hserve : p.serve (k + 1) = x :: p'.serve k := by rw [serve, hnext]
      rw [hserve]
      cases before with
      | nil =>
        -- it is served, and goes behind all the others
        obtain ⟨rfl, rfl⟩ := List.cons.inj (hfirst.symm.trans hturn)
        rw [List.count_cons_self, ih hlast hafter List.not_mem_nil]
        simp [show k + 1 + rest.length = k + (rest.length + 1) by omega]
      | cons y before =>
        obtain ⟨rfl, rfl⟩ := List.cons.inj (hfirst.symm.trans hturn)
        rw [List.mem_cons, not_or] at hbefore
        have hmoved : p'.inTurn = before ++ e :: (after ++ [x]) := by simp [hlast]
        rw [List.count_cons_of_ne (Ne.symm hbefore.1),
          ih hmoved hbefore.2 (by simp [hafter, hbefore.1])]
        congr 1 <;> simp <;> omega

/-- In a pool of `h` healthy endpoints that is `k / h`, rounded down or up. -/
theorem count_serve_even (hnodup : p.endpoints.Nodup) (he : e ∈ p.endpoints)
    (hhealthy : e.healthy = true) (k : Nat) : (p.serve k).count e = k / p.healthyCount ∨
      (p.serve k).count e = (k + p.healthyCount - 1) / p.healthyCount := by
  obtain ⟨before, after, hturn⟩ := List.append_of_mem (mem_inTurn.mpr ⟨he, hhealthy⟩)
  have honce : (before ++ e :: after).Nodup := hturn ▸ (List.nodup_rotate.mpr hnodup).filter _
  rw [List.nodup_middle, List.nodup_cons, List.mem_append, not_or] at honce
  rw [count_serve k hturn honce.1.1 honce.1.2, ← length_inTurn, hturn]
  simp only [List.length_append, List.length_cons]
  generalize hh : before.length + (after.length + 1) = h
  have hlow : k / h ≤ (k + after.length) / h := Nat.div_le_div_right (Nat.le_add_right _ _)
  have hhigh : (k + after.length) / h ≤ (k + h - 1) / h := Nat.div_le_div_right (by omega)
  have hnext : (k + h - 1) / h ≤ k / h + 1 := by
    rw [← Nat.add_div_right k (by omega)]
    exact Nat.div_le_div_right (Nat.sub_le _ _)
  omega

/-! ## §3. The pools that calls make. -/

/-- A replica has one endpoint. -/
def OnePerReplica (p : ServicePool) : Prop := (p.endpoints.map (·.replicaId)).Nodup

theorem OnePerReplica.run (h : p.OnePerReplica) (call : PoolCall) : (call.run p).OnePerReplica := by
  unfold OnePerReplica at h ⊢
  cases call with
  | addReplica endpoint =>
    simp only [PoolCall.run, add]
    split
    · -- the endpoint that is replaced has the same id
      rwa [map_updateFirst_of]
      exact fun x hx => (beq_iff_eq.mp hx).symm
    next hnew =>
      rw [List.map_append, List.map_singleton, List.nodup_append]
      refine ⟨h, List.nodup_singleton _, ?_⟩
      simpa using hnew
  | setReplicaHealthy =>
    rwa [PoolCall.run, setHealthy, map_updateFirst]
    exact fun _ => rfl
  | removeReplica => exact h.sublist (List.filter_sublist.map _)
  | nextSocket =>
    simp only [PoolCall.run]
    split
    · exact h
    next p' socket hnext => rwa [endpoints_nextSocket hnext]

/-- **Round-robin is exact**: of `k` calls in a row on a pool that calls have made, every one of
its `h` healthy endpoints gets `k / h`, rounded down or up. -/
theorem round_robin_exact (start : Nat) (calls : List PoolCall) :
    let p := calls.foldl PoolCall.run (.new start)
    (p.nextSocket.isSome = true ↔ ∃ e ∈ p.endpoints, e.healthy = true) ∧
      (∀ p' socket, p.nextSocket = some (p', socket) →
        ∃ e ∈ p.endpoints, e.healthy = true ∧ e.socketPath = socket) ∧
      ∀ k, p.nextSockets k = (p.serve k).map (·.socketPath) ∧
        ∀ e ∈ p.endpoints, e.healthy = true →
          (p.serve k).count e = k / p.healthyCount ∨
            (p.serve k).count e = (k + p.healthyCount - 1) / p.healthyCount := by
  intro p
  have hone : p.OnePerReplica :=
    List.foldlRecOn calls PoolCall.run List.nodup_nil fun _ h call _ => h.run call
  exact ⟨nextSocket_isSome_iff, fun _ _ => nextSocket_healthy, fun k => ⟨nextSockets_eq k p,
    fun _ he hhealthy => count_serve_even (.of_map _ hone) he hhealthy k⟩⟩

/-- Three replicas, of which one turns unhealthy between two calls. -/
def threeReplicas : List PoolCall :=
  [.addReplica ⟨1, "/run/a.sock", true⟩, .addReplica ⟨2, "/run/b.sock", true⟩,
    .addReplica ⟨3, "/run/c.sock", true⟩, .nextSocket 5, .setReplicaHealthy 2 false]

theorem round_robin_exact_two :
    let p := threeReplicas.foldl PoolCall.run (.new 0)
    p.nextSockets 3 = ["/run/c.sock", "/run/a.sock", "/run/c.sock"] ∧
      ((p.serve 3).count ⟨1, "/run/a.sock", true⟩ = 3 / p.healthyCount ∨
        (p.serve 3).count ⟨1, "/run/a.sock", true⟩
          = (3 + p.healthyCount - 1) / p.healthyCount) := by
  intro p
  refine ⟨by decide +kernel, ?_⟩
  exact ((round_robin_exact 0 threeReplicas).2.2 3).2 _ (by decide) rfl

end ServicePool

end Denia
