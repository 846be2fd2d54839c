/-
  Denia.Autoscale.Activation — `resolve_or_activate` and the cold start behind it, one
  AWAIT POINT at a time (`src/ingress/pingora/state.rs`, `activate_one` in
  `src/autoscale/controller.rs`, `launch_replica` in `src/autoscale/lifecycle.rs`).

  Between two awaits the code runs without interruption; at an await the future can be
  dropped, by the 30 s timeout around the activation or with the request itself: then the
  guards it holds are released, and nothing after the await runs.

  Main result: `activate_uncut` — run alone and not cut, an activation is
  `Controller.activateOne`.
-/
import Denia.Autoscale.Controller
import Denia.Lib.Run

namespace Denia.Autoscale

open Lib

/-- `ACTIVATION_WAIT`, in milliseconds. -/
def activationWait : Nat := 30000

/-- `ACTIVATION_FAILURE_BACKOFF`. -/
def activationFailureBackoff : Nat := 30000

/-- `POST_ACTIVATION_RETRIES`. -/
def postActivationRetries : Nat := 5

/-- `POST_ACTIVATION_RETRY_DELAY`. -/
def postActivationRetryDelay : Nat := 20

/-- The awaits, named after what is awaited. -/
inductive Pc where
  | firstSocket
  | readActivator
  | firstBackoff
  | activationGate
  | gateLock
  | secondSocket
  | secondBackoff
  -- under the timeout, waiting for the controller
  | controllerLock
  -- under the timeout, holding the controller: `launch_replica`
  | start (spec : LaunchSpec)
  | addReplica (spec : LaunchSpec) (replicaId : Uuid) (socket : String)
  | health (spec : LaunchSpec) (replicaId : Uuid) (socket : String)
  | rollbackStop (spec : LaunchSpec) (replicaId : Uuid)
  | rollbackRemove (spec : LaunchSpec) (replicaId : Uuid)
  | markHealthy (spec : LaunchSpec) (replicaId : Uuid)
  -- under the timeout, past the activation
  | poll (attempt : Nat)
  | retryDelay (attempt wake : Nat)
  | clearFailure (socket : String)
  | recordFailure (error : ActivationError)
  | done (result : Except ActivationError (Option String))
  deriving DecidableEq

/-- The await is inside `tokio::time::timeout`. -/
def Pc.inTimeout : Pc → Bool
  | .controllerLock | .start _ | .addReplica _ _ _ | .health _ _ _ | .rollbackStop _ _
  | .rollbackRemove _ _ | .markHealthy _ _ | .poll _ | .retryDelay _ _ => true
  | _ => false

/-- The await is on a call of the runtime. -/
def Pc.onRuntime : Pc → Bool
  | .start _ | .rollbackStop _ _ => true
  | _ => false

/-- A request in `resolve_or_activate`; `deadline` is when its timeout elapses. -/
structure ProxyRequest where
  service : Uuid
  deadline : Nat
  pc : Pc

/-- The shared state: the controller with its lock, the activation gates that are held,
the backoffs, and the requests in flight. -/
structure Proxy where
  ctl : Controller
  lock : Option Nat
  gates : AList fun _ : Uuid => Nat
  backoffs : AList fun _ : Uuid => Nat
  activator : Bool
  clock : Nat
  requests : AList fun _ : Nat => ProxyRequest
  accepted : Nat

/-- Who moves: a request arrives, proceeds past its await, runs into its timeout, is
dropped; or time passes.  A runtime call that is interrupted leaves the runtime in
any state. -/
inductive ProxyEvent where
  | accept (service : Uuid)
  | proceed (request : Nat)
  | timeout (request : Nat) (runtime : Runtime)
  | drop (request : Nat) (runtime : Runtime)
  | elapse (ms : Nat)

/-- What the catalog resolves a service to, by the calls made so far. -/
abbrev Catalog := Nat → Uuid → Option ManagedService

namespace Proxy

/-! ## §1. Between two awaits. -/

/-- The request goes on to its next await. -/
def put (σ : Proxy) (i : Nat) (r : ProxyRequest) (pc : Pc) : Proxy :=
  { σ with requests := σ.requests.insert i { r with pc := pc } }

/-- The guard of the activation gate is dropped, if the request holds it. -/
def releaseGate (σ : Proxy) (i : Nat) (service : Uuid) : Proxy :=
  if σ.gates.lookup service = some i then { σ with gates := σ.gates.erase service } else σ

/-- `resolve_or_activate` returns. -/
def finish (σ : Proxy) (i : Nat) (r : ProxyRequest)
    (result : Except ActivationError (Option String)) : Proxy :=
  (σ.put i r (.done result)).releaseGate i r.service

/-- `next_socket`. -/
def nextSocket (σ : Proxy) (service : Uuid) : Option (Proxy × String) :=
  (σ.ctl.ingress.nextSocket σ.clock service).map fun (pools, socket) =>
    ({ σ with ctl := { σ.ctl with ingress := pools } }, socket)

/-- `activation_backoff_active`: an expired backoff is removed. -/
def activationBackoffActive (σ : Proxy) (service : Uuid) : Proxy × Bool :=
  match σ.backoffs.lookup service with
  | none => (σ, false)
  | some expiry =>
      if σ.clock < expiry then (σ, true)
      else ({ σ with backoffs := σ.backoffs.erase service }, false)

/-- `ActivationHook::activate` returns: the controller's guard is dropped, and
`activate_and_wait` polls for a socket or gives up. -/
def returned (σ : Proxy) (i : Nat) (r : ProxyRequest) (result : Except ActivationError Unit) :
    Proxy :=
  { σ with lock := none }.put i r (match result with
    | .ok () => .poll 0
    | .error e => .recordFailure e)

/-- `activate_one` from the moment the lock is held up to its first await, on what the
catalog resolves the service to. -/
def activateOne (σ : Proxy) (i : Nat) (r : ProxyRequest) (resolved : Option ManagedService) :
    Proxy :=
  match resolved with
  | none => σ.returned i r (.error (.failed "unknown service"))
  | some ms =>
      if 1 ≤ σ.ctl.registry.replicaCount ms.serviceId then σ.returned i r (.ok ())
      else if ms.policy.maxReplicas = 0 then σ.returned i r (.ok ())
      else
        match σ.ctl.reserve (launchSpec ms 0).limits with
        | none => σ.returned i r (.error (.failed "insufficient_capacity"))
        | some c => { σ with ctl := c, lock := some i }.put i r (.start (launchSpec ms 0))

/-- Past the await of `runtime.start`. -/
def started (env : Env) (σ : Proxy) (i : Nat) (r : ProxyRequest) (spec : LaunchSpec) : Proxy :=
  match σ.ctl.runtimeStart env spec.request with
  | (c, .error e) => { σ with ctl := c.release spec.limits }.returned i r (.error (.failed e))
  | (c, .ok socket) =>
      { σ with ctl := (c.register spec socket).1 }.put i r
        (.addReplica spec (c.register spec socket).2 socket)

/-- Past the await of the health check. -/
def checked (env : Env) (σ : Proxy) (i : Nat) (r : ProxyRequest) (spec : LaunchSpec)
    (replicaId : Uuid) (socket : String) : Proxy :=
  match σ.ctl.healthCheck env spec socket with
  | (c, true) =>
      { σ with ctl := { c with registry := c.registry.setState replicaId .healthy } }.put i r
        (.markHealthy spec replicaId)
  | (c, false) => { σ with ctl := c }.put i r (.rollbackStop spec replicaId)

/-- Past the await of the rollback's `runtime.stop`: the budget and the replica go in one
piece, the endpoint after one more await. -/
def rolledBack (env : Env) (σ : Proxy) (i : Nat) (r : ProxyRequest) (spec : LaunchSpec)
    (replicaId : Uuid) : Proxy :=
  let c := (σ.ctl.runtimeStop env ⟨spec.serviceId, spec.replicaIndex⟩).release spec.limits
  { σ with ctl := { c with registry := c.registry.remove replicaId } }.put i r
    (.rollbackRemove spec replicaId)

/-- A request proceeds past its await; `none` while the await is not ready. -/
def advance (env : Env) (catalog : Catalog) (σ : Proxy) (i : Nat)
    (r : ProxyRequest) : Option Proxy :=
  match r.pc with
  | .firstSocket =>
      match σ.nextSocket r.service with
      | some (σ, socket) => some (σ.finish i r (.ok (some socket)))
      | none => some (σ.put i r .readActivator)
  | .readActivator =>
      if σ.activator then some (σ.put i r .firstBackoff) else some (σ.finish i r (.ok none))
  | .firstBackoff =>
      match σ.activationBackoffActive r.service with
      | (σ, true) => some (σ.finish i r (.error .backoff))
      | (σ, false) => some (σ.put i r .activationGate)
  | .activationGate => some (σ.put i r .gateLock)
  | .gateLock =>
      match σ.gates.lookup r.service with
      | some _ => none
      | none => some ({ σ with gates := σ.gates.insert r.service i }.put i r .secondSocket)
  | .secondSocket =>
      match σ.nextSocket r.service with
      | some (σ, socket) => some (σ.finish i r (.ok (some socket)))
      | none => some (σ.put i r .secondBackoff)
  | .secondBackoff =>
      match σ.activationBackoffActive r.service with
      | (σ, true) => some (σ.finish i r (.error .backoff))
      | (σ, false) =>
          some (σ.put i { r with deadline := σ.clock + activationWait } .controllerLock)
  | .controllerLock =>
      match σ.lock with
      | some _ => none
      | none => some (σ.activateOne i r (catalog σ.ctl.calls r.service))
  | .start spec => some (σ.started env i r spec)
  | .addReplica spec replicaId socket =>
      some ({ σ with ctl := σ.ctl.addEndpoint env spec.serviceId replicaId socket }.put i r
        (.health spec replicaId socket))
  | .health spec replicaId socket => some (σ.checked env i r spec replicaId socket)
  | .rollbackStop spec replicaId => some (σ.rolledBack env i r spec replicaId)
  | .rollbackRemove spec replicaId =>
      some ({ σ with ctl := { σ.ctl with
        ingress := σ.ctl.ingress.removeReplica spec.serviceId replicaId } }.returned i r
          (.error (.failed "health")))
  | .markHealthy spec replicaId =>
      some ({ σ with ctl := { σ.ctl with
        ingress := σ.ctl.ingress.setReplicaHealthy spec.serviceId replicaId true } }.returned i r
          (.ok ()))
  | .poll attempt =>
      match σ.nextSocket r.service with
      | some (σ, socket) => some (σ.put i r (.clearFailure socket))
      | none =>
          if attempt + 1 < postActivationRetries then
            some (σ.put i r (.retryDelay attempt (σ.clock + postActivationRetryDelay)))
          else some (σ.put i r (.recordFailure
            (.failed "activation reported healthy but no socket became available")))
  | .retryDelay attempt wake =>
      if wake ≤ σ.clock then some (σ.put i r (.poll (attempt + 1))) else none
  | .clearFailure socket =>
      some ({ σ with backoffs := σ.backoffs.erase r.service }.finish i r (.ok (some socket)))
  | .recordFailure e =>
      some ({ σ with
        backoffs := σ.backoffs.insert r.service (σ.clock + activationFailureBackoff) }.finish i r
          (.error e))
  | .done _ => none

/-! ## §2. Cuts. -/

/-- The future of a request is dropped at its await: its guard of the controller goes,
and nothing else happens. -/
def cut (σ : Proxy) (i : Nat) (r : ProxyRequest) (runtime : Runtime) : Proxy :=
  { σ with
    lock := if σ.lock = some i then none else σ.lock
    ctl := if r.pc.onRuntime then { σ.ctl with runtime := runtime } else σ.ctl }

/-- One event. -/
def step (env : Env) (catalog : Catalog) (σ : Proxy) : ProxyEvent → Option Proxy
  | .accept service =>
      some { σ with
        requests := σ.requests.insert σ.accepted ⟨service, 0, .firstSocket⟩
        accepted := σ.accepted + 1 }
  | .proceed i =>
      match σ.requests.lookup i with
      | none => none
      | some r => σ.advance env catalog i r
  | .timeout i runtime =>
      match σ.requests.lookup i with
      | none => none
      | some r =>
          if r.pc.inTimeout ∧ r.deadline ≤ σ.clock then
            some ((σ.cut i r runtime).put i r (.recordFailure .timeout))
          else none
  | .drop i runtime =>
      match σ.requests.lookup i with
      | none => none
      | some r =>
          some { (σ.cut i r runtime).releaseGate i r.service with
            requests := σ.requests.erase i }
  | .elapse ms => some { σ with clock := σ.clock + ms }

end Proxy

/-! ## §3. An activation that is not cut. -/

/-- Proceeding past some of its awaits, request `i` gets to a state that meets `P`. -/
def Reaches (env : Env) (catalog : Catalog) (i : Nat) (σ : Proxy) (P : Proxy → Prop) : Prop :=
  ∃ n σ', exec (Proxy.step env catalog) σ (List.replicate n (.proceed i)) = some σ' ∧ P σ'

/-- Request `i` stands at an await, with the controller in the given state. -/
def Stands (σ : Proxy) (i : Nat) (r : ProxyRequest) (pc : Pc) (c : Controller) : Prop :=
  σ.ctl = c ∧ σ.requests.lookup i = some { r with pc := pc }

section
variable {env : Env} {catalog : Catalog} {i : Nat} {σ σ' : Proxy}
  {r : ProxyRequest} {P : Proxy → Prop}

theorem Reaches.here (h : P σ) : Reaches env catalog i σ P := ⟨0, σ, rfl, h⟩

theorem Reaches.step (hr : σ.requests.lookup i = some r)
    (hadvance : σ.advance env catalog i r = some σ') (h : Reaches env catalog i σ' P) :
    Reaches env catalog i σ P := by
  obtain ⟨n, σ2, hrun, hP⟩ := h
  refine ⟨n + 1, σ2, ?_, hP⟩
  show (Proxy.step env catalog σ (.proceed i)).bind _ = _
  unfold Proxy.step
  simp only [hr, hadvance]
  exact hrun

@[simp] theorem put_ctl (σ : Proxy) (i : Nat) (r : ProxyRequest) (pc : Pc) :
    (σ.put i r pc).ctl = σ.ctl := rfl

theorem stands_put (σ : Proxy) (i : Nat) (r : ProxyRequest) (pc pc' : Pc) :
    Stands (σ.put i { r with pc := pc } pc') i r pc' σ.ctl :=
  ⟨rfl, AList.lookup_insert _⟩

/-- Where an activation ends up. -/
def Pc.afterActivation : Except ActivationError Unit → Pc
  | .ok () => .poll 0
  | .error e => .recordFailure e

/-- The activation of request `i` has come to its end. -/
def Activated (i : Nat) (r : ProxyRequest) (ended : Controller × Except ActivationError Unit)
    (σ : Proxy) : Prop :=
  Stands σ i r (Pc.afterActivation ended.2) ended.1 ∧ σ.lock = none

theorem activated_returned (σ : Proxy) (i : Nat) (r : ProxyRequest) (pc : Pc)
    (result : Except ActivationError Unit) :
    Activated i r (σ.ctl, result) (σ.returned i { r with pc := pc } result) := by
  refine ⟨⟨rfl, ?_⟩, rfl⟩
  unfold Proxy.returned Proxy.put
  rw [AList.lookup_insert]
  cases result <;> rfl

/-- What `activate_one` answers for the outcome of its launch. -/
def activationAnswer : Except LifecycleError Uuid → Except ActivationError Unit
  | .ok _ => .ok ()
  | .error .capacity => .error (.failed "insufficient_capacity")
  | .error .health => .error (.failed "health")
  | .error (.runtime e) => .error (.failed e)

/-- `launch_replica`, await by await, from its reservation on. -/
theorem launch_uncut {spec : LaunchSpec} {c : Controller}
    (hreserve : c.reserve spec.limits = some σ.ctl)
    (hr : σ.requests.lookup i = some { r with pc := .start spec }) :
    Reaches env catalog i σ (Activated i r ((c.launchReplica env spec).1,
      activationAnswer (c.launchReplica env spec).2)) := by
  unfold Controller.launchReplica
  rw [hreserve]
  simp only
  refine Reaches.step hr rfl ?_
  unfold Proxy.started
  cases σ.ctl.runtimeStart env spec.request with
  | mk c1 result =>
    cases result with
    | error => exact .here (activated_returned _ i r _ _)
    | ok socket =>
      -- past `add_replica`, up to the health check
      refine Reaches.step (stands_put _ i r _ _).2 rfl ?_
      refine Reaches.step (stands_put _ i r _ _).2 rfl ?_
      unfold Proxy.checked
      simp only [put_ctl]
      generalize Controller.healthCheck env spec socket _ = verdict
      obtain ⟨c2, healthy⟩ := verdict
      cases healthy with
      | true =>
        refine Reaches.step (stands_put _ i r _ _).2 rfl ?_
        exact .here (activated_returned _ i r _ _)
      | false =>
        refine Reaches.step (stands_put _ i r _ _).2 rfl ?_
        refine Reaches.step (stands_put _ i r _ _).2 rfl ?_
        exact .here (activated_returned _ i r _ _)

/-- **An activation that is not cut is `activate_one`.** -/
theorem activate_uncut (hr : σ.requests.lookup i = some { r with pc := .controllerLock })
    (hlock : σ.lock = none) :
    Reaches env catalog i σ
      (Activated i r (σ.ctl.activateOne env (catalog σ.ctl.calls r.service))) := by
  have hadvance : σ.advance env catalog i { r with pc := .controllerLock }
      = some (σ.activateOne i { r with pc := .controllerLock }
          (catalog σ.ctl.calls r.service)) := by
    unfold Proxy.advance
    simp only [hlock]
  refine Reaches.step hr hadvance ?_
  unfold Proxy.activateOne Controller.activateOne
  cases catalog σ.ctl.calls r.service with
  | none => exact .here (activated_returned _ i r _ _)
  | some ms =>
    simp only
    split
    · exact .here (activated_returned _ i r _ _)
    split
    · exact .here (activated_returned _ i r _ _)
    cases hreserve : σ.ctl.reserve (launchSpec ms 0).limits with
    | none =>
      unfold Controller.launchReplica
      rw [hreserve]
      exact .here (activated_returned _ i r _ _)
    | some c =>
      have hlaunch : Reaches env catalog i
          (({ σ with ctl := c, lock := some i } : Proxy).put i
            { r with pc := .controllerLock } (.start (launchSpec ms 0))) _ :=
        launch_uncut hreserve (stands_put _ i r _ _).2
      revert hlaunch
      generalize σ.ctl.launchReplica env (launchSpec ms 0) = launched
      intro hlaunch
      obtain ⟨c2, _ | e⟩ := launched
      · cases ‹LifecycleError› <;> exact hlaunch
      · exact hlaunch

end

end Denia.Autoscale
