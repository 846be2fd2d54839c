/-
  Denia.Ingress.Pool — the per-service replica pools of the ingress
  (`ServicePool` and the pool methods of `IngressState` in
  `src/ingress/pingora/state.rs`).

  A pool is keyed by the service id as text; the text is a function of the id, so
  the id is the key here.  An instant is a number of seconds.
-/
import Mathlib.Data.List.Rotate
import Denia.Domain
import Denia.Lib.UpdateFirst

namespace Denia

open Lib

/-- `ReplicaEndpoint`. -/
structure ReplicaEndpoint where
  replicaId : Uuid
  socketPath : String
  healthy : Bool
  deriving DecidableEq

/-- `ServicePool`. -/
structure ServicePool where
  endpoints : List ReplicaEndpoint
  cursor : Nat
  lastActivity : Nat

namespace ServicePool

/-- `ServicePool::new` at the instant `now`. -/
def new (now : Nat) : ServicePool := { endpoints := [], cursor := 0, lastActivity := now }

/-- `healthy_count`. -/
def healthyCount (p : ServicePool) : Nat := (p.endpoints.filter (·.healthy)).length

/-- The probe loop of `next_socket`: `offset` runs up to the number of endpoints,
and the first healthy one past the cursor is taken. -/
def nextSocketFrom (p : ServicePool) : Nat → Nat → Option (ServicePool × String)
  | _, 0 => none
  | offset, fuel + 1 =>
      let idx := (p.cursor + offset) % p.endpoints.length
      match p.endpoints[idx]? with
      | none => none
      | some e =>
          if e.healthy then
            some ({ p with cursor := (idx + 1) % p.endpoints.length }, e.socketPath)
          else p.nextSocketFrom (offset + 1) fuel

/-- `ServicePool::next_socket`. -/
def nextSocket (p : ServicePool) : Option (ServicePool × String) :=
  p.nextSocketFrom 0 p.endpoints.length

/-- Insert an endpoint, or replace the one with the same replica id. -/
def add (p : ServicePool) (e : ReplicaEndpoint) : ServicePool :=
  if p.endpoints.any (·.replicaId == e.replicaId) then
    { p with endpoints := updateFirst (·.replicaId == e.replicaId) (fun _ => e) p.endpoints }
  else { p with endpoints := p.endpoints ++ [e] }

/-- `set_replica_healthy`, on one pool. -/
def setHealthy (p : ServicePool) (replicaId : Uuid) (healthy : Bool) : ServicePool :=
  { p with
    endpoints := updateFirst (·.replicaId == replicaId) (fun e => { e with healthy := healthy })
      p.endpoints }

/-- `remove_replica`, on one pool. -/
def remove (p : ServicePool) (replicaId : Uuid) : ServicePool :=
  let endpoints := p.endpoints.filter (·.replicaId ≠ replicaId)
  { p with
    endpoints := endpoints
    cursor := if p.cursor ≥ endpoints.length then 0 else p.cursor }

variable {p p' : ServicePool} {e : ReplicaEndpoint} {socket : String}

theorem mem_add_of_ne {x : ReplicaEndpoint} (hx : x ∈ p.endpoints)
    (hne : x.replicaId ≠ e.replicaId) : x ∈ (p.add e).endpoints := by
  unfold add
  split
  · exact mem_updateFirst_of_neg hx (beq_eq_false_iff_ne.mpr hne)
  · exact List.mem_append_left _ hx

/-- The endpoint whose socket the probe returns. -/
def nextEndpointFrom (p : ServicePool) : Nat → Nat → Option (ServicePool × ReplicaEndpoint)
  | _, 0 => none
  | offset, fuel + 1 =>
      let idx := (p.cursor + offset) % p.endpoints.length
      match p.endpoints[idx]? with
      | none => none
      | some e =>
          if e.healthy then some ({ p with cursor := (idx + 1) % p.endpoints.length }, e)
          else p.nextEndpointFrom (offset + 1) fuel

/-- `nextSocket`, with the endpoint. -/
def nextEndpoint (p : ServicePool) : Option (ServicePool × ReplicaEndpoint) :=
  p.nextEndpointFrom 0 p.endpoints.length

theorem nextSocketFrom_eq (p : ServicePool) (offset fuel : Nat) : p.nextSocketFrom offset fuel
      = (p.nextEndpointFrom offset fuel).map fun r => (r.1, r.2.socketPath) := by
  induction fuel generalizing offset with
  | zero => rfl
  | succ fuel ih =>
    simp only [nextSocketFrom, nextEndpointFrom]
    split
    · rfl
    · split
      · rfl
      · exact ih _

theorem nextSocket_eq (p : ServicePool) :
    p.nextSocket = p.nextEndpoint.map fun r => (r.1, r.2.socketPath) :=
  nextSocketFrom_eq p 0 _

/-- The healthy endpoints in the order in which the probe meets them. -/
def inTurn (p : ServicePool) : List ReplicaEndpoint :=
  (p.endpoints.rotate p.cursor).filter (·.healthy)

theorem mem_inTurn : e ∈ p.inTurn ↔ e ∈ p.endpoints ∧ e.healthy = true := by
  simp [inTurn]

/-- The probe stops at the first healthy endpoint of what is left of the round. -/
theorem nextEndpointFrom_spec (probed left : List ReplicaEndpoint)
    (hsplit : p.endpoints.rotate p.cursor = probed ++ left) :
    (p.nextEndpointFrom probed.length left.length = none ∧ left.filter (·.healthy) = []) ∨
      ∃ sick e rest, left = sick ++ e :: rest ∧ sick.filter (·.healthy) = [] ∧ e.healthy = true ∧
        p.nextEndpointFrom probed.length left.length
          = some ({ p with cursor :=
              (p.cursor + (probed ++ sick).length + 1) % p.endpoints.length }, e) := by
  induction left generalizing probed with
  | nil => exact .inl ⟨rfl, rfl⟩
  | cons x left ih =>
    have hlt : probed.length < p.endpoints.length := by
      rw [← List.length_rotate p.endpoints p.cursor, hsplit]
      simp
    have hx : p.endpoints[(p.cursor + probed.length) % p.endpoints.length]? = some x := by
      rw [Nat.add_comm, ← List.getElem?_rotate hlt, hsplit]
      simp
    have hprobe : p.nextEndpointFrom probed.length (x :: left).length
        = if x.healthy then
            some ({ p with cursor := (p.cursor + probed.length + 1) % p.endpoints.length }, x)
          else p.nextEndpointFrom (probed ++ [x]).length left.length := by
      simp [nextEndpointFrom, hx]
    rw [hprobe]
    by_cases hhealthy : x.healthy = true
    · exact .inr ⟨[], x, left, rfl, rfl, hhealthy, by simp [hhealthy]⟩
    · rw [if_neg hhealthy]
      rcases ih (probed ++ [x]) (by simp [hsplit]) with
        ⟨hnone, hsick⟩ | ⟨sick, e, rest, rfl, hsick, he, hnext⟩
      · exact .inl ⟨hnone, by simp [hhealthy, hsick]⟩
      · exact .inr ⟨x :: sick, e, rest, rfl, by simp [hhealthy, hsick], he, by
          rw [hnext, List.append_assoc, List.singleton_append]⟩

/-- **The first in turn is taken, and goes to the end.** -/
theorem nextEndpoint_spec (p : ServicePool) : (p.nextEndpoint = none ∧ p.inTurn = []) ∨
      ∃ p' e rest, p.nextEndpoint = some (p', e) ∧ p'.endpoints = p.endpoints ∧
        p.inTurn = e :: rest ∧ p'.inTurn = rest ++ [e] := by
  have hlength := List.length_rotate p.endpoints p.cursor
  rcases nextEndpointFrom_spec [] (p.endpoints.rotate p.cursor) rfl with
    ⟨hnone, hsick⟩ | ⟨sick, e, rest, hsplit, hsick, he, hnext⟩
  · rw [hlength] at hnone
    exact .inl ⟨hnone, hsick⟩
  · rw [hlength] at hnext
    refine .inr ⟨_, e, rest.filter (·.healthy), hnext, rfl, ?_, ?_⟩
    · simp [inTurn, hsplit, hsick, he]
    · have hrotate : p.endpoints.rotate (p.cursor + sick.length + 1) = rest ++ (sick ++ [e]) := by
        rw [Nat.add_assoc, ← List.rotate_rotate, hsplit]
        simpa using List.rotate_append_length_eq (sick ++ [e]) rest
      simp [inTurn, List.rotate_mod, hrotate, hsick, he]

theorem endpoints_nextSocket (h : p.nextSocket = some (p', socket)) :
    p'.endpoints = p.endpoints := by
  rw [nextSocket_eq] at h
  rcases nextEndpoint_spec p with ⟨hnone, -⟩ | ⟨p1, e, rest, hnext, hendpoints, -⟩
  · simp [hnone] at h
  · simp only [hnext, Option.map_some, Option.some.injEq, Prod.mk.injEq] at h
    rw [← h.1, hendpoints]

theorem nextSocket_healthy (h : p.nextSocket = some (p', socket)) :
    ∃ e ∈ p.endpoints, e.healthy = true ∧ e.socketPath = socket := by
  rw [nextSocket_eq] at h
  rcases nextEndpoint_spec p with ⟨hnone, -⟩ | ⟨p1, e, rest, hnext, -, hturn, -⟩
  · simp [hnone] at h
  · simp only [hnext, Option.map_some, Option.some.injEq, Prod.mk.injEq] at h
    obtain ⟨he, hhealthy⟩ := mem_inTurn.mp (hturn ▸ List.mem_cons_self)
    exact ⟨e, he, hhealthy, h.2⟩

/-- A pool has a next socket if it has a healthy endpoint: the probe goes all the way round. -/
theorem nextSocket_isSome_iff :
    p.nextSocket.isSome = true ↔ ∃ e ∈ p.endpoints, e.healthy = true := by
  rw [nextSocket_eq, Option.isSome_map]
  simp only [← mem_inTurn]
  rcases nextEndpoint_spec p with ⟨hnone, hturn⟩ | ⟨p', e, rest, hnext, -, hturn, -⟩
  · simp [hnone, hturn]
  · simp [hnext, hturn]

end ServicePool

/-- `IngressState::pools`. -/
structure Pools where
  byService : AList fun _ : Uuid => ServicePool

namespace Pools

/-- The endpoints of a service; none when it has no pool. -/
def endpoints (ps : Pools) (service : Uuid) : List ReplicaEndpoint :=
  ((ps.byService.lookup service).map (·.endpoints)).getD []

/-- `add_replica`: an endpoint is added unhealthy, in a pool created on demand. -/
def addReplica (ps : Pools) (now : Nat) (service replicaId : Uuid) (socketPath : String) : Pools :=
  let pool := (ps.byService.lookup service).getD (ServicePool.new now)
  { byService := ps.byService.insert service (pool.add ⟨replicaId, socketPath, false⟩) }

/-- Change the pool of a service, if it has one. -/
def update (ps : Pools) (service : Uuid) (f : ServicePool → ServicePool) : Pools :=
  match ps.byService.lookup service with
  | none => ps
  | some pool => { byService := ps.byService.insert service (f pool) }

/-- `set_replica_healthy`. -/
def setReplicaHealthy (ps : Pools) (service replicaId : Uuid) (healthy : Bool) : Pools :=
  ps.update service (·.setHealthy replicaId healthy)

/-- `remove_replica`. -/
def removeReplica (ps : Pools) (service replicaId : Uuid) : Pools :=
  ps.update service (·.remove replicaId)

/-- `next_socket`: round-robin over the healthy endpoints, noting the activity. -/
def nextSocket (ps : Pools) (now : Nat) (service : Uuid) : Option (Pools × String) :=
  match ps.byService.lookup service with
  | none => none
  | some pool =>
      match pool.nextSocket with
      | none => none
      | some (pool, socket) =>
          some ({ byService := ps.byService.insert service { pool with lastActivity := now } },
            socket)

/-- `last_activity`. -/
def lastActivity (ps : Pools) (service : Uuid) : Option Nat :=
  (ps.byService.lookup service).map (·.lastActivity)

/-! ## The endpoints after a change. -/

/-- The endpoints of a service in a map with one pool replaced. -/
theorem endpoints_insert (ps : Pools) (service service' : Uuid) (pool : ServicePool) :
    endpoints ⟨ps.byService.insert service pool⟩ service'
      = if service' = service then pool.endpoints else ps.endpoints service' := by
  unfold endpoints
  by_cases h : service' = service
  · subst h
    rw [AList.lookup_insert, if_pos rfl]
    rfl
  · rw [AList.lookup_insert_ne h, if_neg h]

theorem endpoints_update (ps : Pools) (service service' : Uuid) (f : ServicePool → ServicePool) :
    (ps.update service f).endpoints service'
      = if service' = service
        then ((ps.byService.lookup service).map fun p => (f p).endpoints).getD []
        else ps.endpoints service' := by
  unfold update
  split
  next hnone =>
    split
    next h =>
      subst h
      rw [hnone]
      unfold endpoints
      rw [hnone]
      rfl
    next => rfl
  next pool hpool =>
    rw [endpoints_insert, hpool]
    rfl

/-- The endpoints of a pool that is created on demand. -/
theorem endpoints_getD (ps : Pools) (now : Nat) (service : Uuid) :
    ((ps.byService.lookup service).getD (ServicePool.new now)).endpoints
      = ps.endpoints service := by
  unfold endpoints
  cases ps.byService.lookup service <;> rfl

variable {ps ps' : Pools} {now : Nat} {service replicaId service' : Uuid} {socket : String}
  {e : ReplicaEndpoint}

/-- `add_replica` with a new id appends an unhealthy endpoint. -/
theorem endpoints_addReplica (hnew : ∀ e ∈ ps.endpoints service, e.replicaId ≠ replicaId)
    (service' : Uuid) : (ps.addReplica now service replicaId socket).endpoints service'
      = if service' = service then ps.endpoints service ++ [⟨replicaId, socket, false⟩]
        else ps.endpoints service' := by
  have hfree : ¬ (ps.endpoints service).any (·.replicaId == replicaId) = true := by
    rw [List.any_eq_true]
    rintro ⟨e, he, hid⟩
    exact hnew e he (by simpa using hid)
  unfold addReplica
  rw [endpoints_insert]
  simp only [ServicePool.add, endpoints_getD]
  rw [if_neg hfree]

/-- `set_replica_healthy` changes the endpoint of the replica. -/
theorem endpoints_setReplicaHealthy (ps : Pools) (service replicaId : Uuid) (healthy : Bool)
    (service' : Uuid) : (ps.setReplicaHealthy service replicaId healthy).endpoints service'
      = if service' = service then
          updateFirst (·.replicaId == replicaId) (fun e => { e with healthy := healthy })
            (ps.endpoints service)
        else ps.endpoints service' := by
  unfold setReplicaHealthy endpoints
  rw [← endpoints, endpoints_update]
  split
  · cases ps.byService.lookup service <;> rfl
  · rfl

/-- The endpoints with other ids stay as they were. -/
theorem mem_endpoints_up_of_ne (he : e ∈ ps.endpoints service') (hne : e.replicaId ≠ replicaId) :
    e ∈ ((ps.addReplica now service replicaId socket).setReplicaHealthy service replicaId
      true).endpoints service' := by
  rw [endpoints_setReplicaHealthy]
  unfold addReplica
  rw [endpoints_insert, endpoints_insert, if_pos rfl]
  split
  next hs =>
    subst hs
    refine mem_updateFirst_of_neg (ServicePool.mem_add_of_ne ?_ hne) (beq_eq_false_iff_ne.mpr hne)
    rwa [endpoints_getD]
  next => exact he

/-- `remove_replica` drops the endpoint of the replica. -/
theorem endpoints_removeReplica (ps : Pools) (service replicaId service' : Uuid) :
    (ps.removeReplica service replicaId).endpoints service'
      = if service' = service then (ps.endpoints service).filter (·.replicaId ≠ replicaId)
        else ps.endpoints service' := by
  unfold removeReplica endpoints
  rw [← endpoints, endpoints_update]
  split
  · cases ps.byService.lookup service <;> rfl
  · rfl

/-- `next_socket` changes no endpoint. -/
theorem endpoints_nextSocket (h : ps.nextSocket now service = some (ps', socket))
    (service' : Uuid) : ps'.endpoints service' = ps.endpoints service' := by
  unfold nextSocket at h
  split at h
  next => cases h
  next pool hpool =>
    split at h
    next => cases h
    next pool' socket' hnext =>
      cases h
      rw [endpoints_insert]
      split
      next hs =>
        subst hs
        show pool'.endpoints = _
        rw [ServicePool.endpoints_nextSocket hnext, endpoints, hpool]
        rfl
      next => rfl

/-- The socket that `next_socket` returns is a healthy endpoint's. -/
theorem nextSocket_healthy (h : ps.nextSocket now service = some (ps', socket)) :
    ∃ e ∈ ps.endpoints service, e.healthy = true ∧ e.socketPath = socket := by
  unfold nextSocket at h
  split at h
  next => cases h
  next pool hpool =>
    split at h
    next => cases h
    next pool' socket' hnext =>
      injection h with h
      injection h with _ h
      subst h
      rw [endpoints, hpool]
      exact ServicePool.nextSocket_healthy hnext

/-- A service with a healthy endpoint has a next socket. -/
theorem nextSocket_isSome (h : ∃ e ∈ ps.endpoints service, e.healthy = true) (now : Nat) :
    (ps.nextSocket now service).isSome = true := by
  obtain ⟨e, he, hhealthy⟩ := h
  unfold nextSocket
  cases hpool : ps.byService.lookup service with
  | none =>
    rw [endpoints, hpool] at he
    cases he
  | some =>
    rw [endpoints, hpool] at he
    have hsome := ServicePool.nextSocket_isSome_iff.mpr ⟨e, he, hhealthy⟩
    obtain ⟨⟨pool', socket⟩, hnext⟩ := Option.isSome_iff_exists.mp hsome
    simp only [hnext]
    rfl

/-- An endpoint after `add_replica` is the new one or an old one. -/
theorem mem_endpoints_addReplica
    (h : e ∈ (ps.addReplica now service replicaId socket).endpoints service') :
    (service' = service ∧ e.replicaId = replicaId) ∨ e ∈ ps.endpoints service' := by
  unfold addReplica at h
  rw [endpoints_insert] at h
  split at h
  next hs =>
    subst hs
    rw [← endpoints_getD ps now]
    unfold ServicePool.add at h
    split at h
    · rcases mem_updateFirst h with h | ⟨x, -, -, rfl⟩
      · exact .inr h
      · exact .inl ⟨rfl, rfl⟩
    · rcases List.mem_append.mp h with h | h
      · exact .inr h
      · rw [List.mem_singleton.mp h]
        exact .inl ⟨rfl, rfl⟩
  next => exact .inr h

/-- `set_replica_healthy` changes no id. -/
theorem mem_endpoints_setReplicaHealthy {healthy : Bool}
    (h : e ∈ (ps.setReplicaHealthy service replicaId healthy).endpoints service') :
    ∃ e' ∈ ps.endpoints service', e'.replicaId = e.replicaId := by
  rw [endpoints_setReplicaHealthy] at h
  split at h
  next hs =>
    subst hs
    rcases mem_updateFirst h with h | ⟨x, hx, -, rfl⟩
    · exact ⟨e, h, rfl⟩
    · exact ⟨x, hx, rfl⟩
  next => exact ⟨e, h, rfl⟩

/-- After `remove_replica` the endpoint is gone and the others are as they were. -/
theorem mem_endpoints_removeReplica
    (h : e ∈ (ps.removeReplica service replicaId).endpoints service') :
    e ∈ ps.endpoints service' ∧ (service' = service → e.replicaId ≠ replicaId) := by
  rw [endpoints_removeReplica] at h
  split at h
  next hs =>
    subst hs
    obtain ⟨h, hne⟩ := List.mem_filter.mp h
    exact ⟨h, fun _ => by simpa using hne⟩
  next hs => exact ⟨h, fun heq => absurd heq hs⟩

end Pools

end Denia
