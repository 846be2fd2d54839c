/-
  Denia.Autoscale.Cancellation — what the requests of the proxy leave behind in the
  controller when activations complete, fail, run into their timeout or are dropped.

  While an activation holds the lock of the controller, it has in hand a BUDGET without a
  replica, then a REPLICA that is pending, then nothing; the rollback of `launch_replica` is
  code after an await, and a future that is dropped at that await never gets to it.

  Main results: `advance_move`, a request between two awaits; `activation_settled`, if no
  request is cut with something in hand; `timeout_leaves_pending`.
-/
import Denia.Autoscale.Activation
import Denia.Autoscale.Conservation
import Denia.Lib.Monitor

namespace Denia.Autoscale

open Lib

/-! ## §1. What is in hand. -/

/-- The commitment is the sum of the limits of the registered replicas, and `extra` on
top of it. -/
def Booked (limits : Uuid → ResourceLimits) (extra : ResourceLimits) (c : Controller) : Prop :=
  c.ledger.committedCpu
      = (c.registry.replicas.map fun r => (limits r.serviceId).cpuMillis).sum + extra.cpuMillis ∧
    c.ledger.committedMem
      = (c.registry.replicas.map fun r => (limits r.serviceId).memoryBytes).sum
        + extra.memoryBytes

/-- No registered replica is pending, and the commitment is the sum of the limits of the
registered replicas. -/
def Settled (limits : Uuid → ResourceLimits) (c : Controller) : Prop :=
  (∀ r ∈ c.registry.replicas, r.state ≠ .pending) ∧ Booked limits ⟨0, 0⟩ c

/-- What an activation has in hand while it holds the controller. -/
inductive Held where
  | budget (spec : LaunchSpec)
  | replica (spec : LaunchSpec) (replicaId : Uuid)
  | nothing

/-- What is in hand at an await; `none` where the controller is not held. -/
def Pc.held : Pc → Option Held
  | .start spec => some (.budget spec)
  | .addReplica spec replicaId _ | .health spec replicaId _ | .rollbackStop spec replicaId =>
      some (.replica spec replicaId)
  | .rollbackRemove _ _ | .markHealthy _ _ => some .nothing
  | _ => none

/-- The controller while something is in hand. -/
def Between (limits : Uuid → ResourceLimits) (c : Controller) : Option Held → Prop
  | none | some .nothing => Settled limits c
  | some (.budget spec) =>
      spec.limits = limits spec.serviceId ∧
        (∀ r ∈ c.registry.replicas, r.state ≠ .pending) ∧ Booked limits spec.limits c
  | some (.replica spec replicaId) =>
      spec.limits = limits spec.serviceId ∧
        (∃ r ∈ c.registry.replicas, r.id = replicaId ∧ r.serviceId = spec.serviceId) ∧
        (∀ r ∈ c.registry.replicas, r.state = .pending → r.id = replicaId) ∧
        Booked limits ⟨0, 0⟩ c

/-- The books of the controller, on a ledger that cannot saturate. -/
def Mid (limits : Uuid → ResourceLimits) (held : Option Held) (c : Controller) : Prop :=
  c.ledger.Unsaturated ∧ Between limits c held

variable {limits : Uuid → ResourceLimits} {held : Option Held} {c c' : Controller}

/-- Only the registry and the ledger count. -/
theorem Mid.congr (hreg : c'.registry = c.registry) (hledger : c'.ledger = c.ledger)
    (h : Mid limits held c) : Mid limits held c' := by
  unfold Mid Between Settled Booked at h ⊢
  rwa [hreg, hledger]

/-! ## §2. The moves of a launch. -/

/-- What `launch_replica` does to the registry and the ledger between two awaits. -/
inductive LaunchMove (limits : Uuid → ResourceLimits) (c c' : Controller) :
    Option Held → Option Held → Prop
  | reserve {spec : LaunchSpec} (hspec : spec.limits = limits spec.serviceId)
      (hledger : c.ledger.tryReserve spec.limits = some c'.ledger)
      (hreg : c'.registry = c.registry) : LaunchMove limits c c' none (some (.budget spec))
  | notStarted {spec : LaunchSpec} (hledger : c'.ledger = c.ledger.release spec.limits)
      (hreg : c'.registry = c.registry) : LaunchMove limits c c' (some (.budget spec)) none
  | register {spec : LaunchSpec} {socket : String} (hledger : c'.ledger = c.ledger)
      (hreg : c'.registry = (c.registry.add spec.serviceId spec.deploymentId spec.replicaIndex
        socket spec.limits).1) :
      LaunchMove limits c c' (some (.budget spec)) (some (.replica spec c.registry.nextId))
  | keep {held : Option Held} (hledger : c'.ledger = c.ledger)
      (hreg : c'.registry = c.registry) : LaunchMove limits c c' held held
  | rollBack {spec : LaunchSpec} {replicaId : Uuid}
      (hledger : c'.ledger = c.ledger.release spec.limits)
      (hreg : c'.registry = c.registry.remove replicaId) :
      LaunchMove limits c c' (some (.replica spec replicaId)) (some .nothing)
  | healthy {spec : LaunchSpec} {replicaId : Uuid} (hledger : c'.ledger = c.ledger)
      (hreg : c'.registry = c.registry.setState replicaId .healthy) :
      LaunchMove limits c c' (some (.replica spec replicaId)) (some .nothing)
  | leave (hledger : c'.ledger = c.ledger) (hreg : c'.registry = c.registry) :
      LaunchMove limits c c' (some .nothing) none

variable {socket : String} {replicaId : Uuid}

section
theorem unsaturated_of_allocatable {l l' : ResourceLedger} (h : l.Unsaturated)
    (hcpu : l'.allocatableCpu = l.allocatableCpu) (hmem : l'.allocatableMem = l.allocatableMem) :
    l'.Unsaturated := by
  rwa [ResourceLedger.Unsaturated, hcpu, hmem]

variable {spec : LaunchSpec}

/-- A reservation is in the books, on top of the replicas. -/
theorem mid_reserve (h : Mid limits none c) (hspec : spec.limits = limits spec.serviceId)
    (hledger : c.ledger.tryReserve spec.limits = some c'.ledger) (hreg : c'.registry = c.registry) :
    Mid limits (some (.budget spec)) c' := by
  obtain ⟨hsat, hpending, hbooked⟩ := h
  obtain ⟨hcpu, hmem, halloc⟩ := ResourceLedger.tryReserve_spec hledger hsat
  refine ⟨unsaturated_of_allocatable hsat halloc.1 halloc.2, hspec, ?_, ?_⟩
  · rwa [hreg]
  · unfold Booked at hbooked ⊢
    rw [hreg, hcpu, hmem, hbooked.1, hbooked.2]
    exact ⟨rfl, rfl⟩

/-- A reservation is given back. -/
theorem mid_notStarted (h : Mid limits (some (.budget spec)) c)
    (hledger : c'.ledger = c.ledger.release spec.limits) (hreg : c'.registry = c.registry) :
    Mid limits none c' := by
  obtain ⟨hsat, -, hpending, hbooked⟩ := h
  refine ⟨hledger ▸ hsat, hreg ▸ hpending, ?_⟩
  unfold Booked at hbooked ⊢
  rw [hreg, hledger]
  simp only [ResourceLedger.release]
  omega

/-- A registered replica takes over the reservation. -/
theorem mid_register (h : Mid limits (some (.budget spec)) c) (hledger : c'.ledger = c.ledger)
    (hreg : c'.registry = (c.registry.add spec.serviceId spec.deploymentId spec.replicaIndex
      socket spec.limits).1) : Mid limits (some (.replica spec c.registry.nextId)) c' := by
  obtain ⟨hsat, hspec, hpending, hbooked⟩ := h
  set added := c.registry.fresh spec.serviceId spec.deploymentId spec.replicaIndex socket
    spec.limits
  have hreplicas : c'.registry.replicas = c.registry.replicas ++ [added] := by
    rw [hreg]
    rfl
  refine ⟨hledger ▸ hsat, hspec, ⟨added, ?_, rfl, rfl⟩, ?_, ?_⟩
  · simp [hreplicas]
  · intro r hr hstate
    rw [hreplicas] at hr
    rcases List.mem_append.mp hr with hr | hr
    · exact absurd hstate (hpending r hr)
    · rw [List.mem_singleton.mp hr]
      rfl
  · unfold Booked at hbooked ⊢
    simp only [hreplicas, hledger, hbooked, List.map_append, List.sum_append, hspec]
    exact ⟨rfl, rfl⟩

/-- The rollback takes the replica and its budget out together. -/
theorem mid_rollBack (h : Mid limits (some (.replica spec replicaId)) c)
    (hledger : c'.ledger = c.ledger.release spec.limits)
    (hreg : c'.registry = c.registry.remove replicaId) : Mid limits (some .nothing) c' := by
  obtain ⟨hsat, hspec, ⟨r, hr, rfl, hservice⟩, hpending, hbooked⟩ := h
  refine ⟨hledger ▸ hsat, fun x hx hstate => ?_, ?_⟩
  · rw [hreg] at hx
    obtain ⟨hx, hne⟩ := List.mem_filter.mp hx
    exact absurd (hpending x hx hstate) (by simpa using hne)
  · have hcpu := ReplicaRegistry.sum_remove hr fun r => (limits r.serviceId).cpuMillis
    have hmem := ReplicaRegistry.sum_remove hr fun r => (limits r.serviceId).memoryBytes
    simp only [hservice, ← hspec] at hcpu hmem
    unfold Booked at hbooked ⊢
    rw [hreg, hledger]
    simp only [ResourceLedger.release, Nat.add_zero] at hbooked ⊢
    omega

/-- A replica that passes its health check is no longer pending. -/
theorem mid_healthy (h : Mid limits (some (.replica spec replicaId)) c)
    (hledger : c'.ledger = c.ledger) (hreg : c'.registry = c.registry.setState replicaId .healthy) :
    Mid limits (some .nothing) c' := by
  obtain ⟨hsat, -, ⟨r, hr, rfl, -⟩, hpending, hbooked⟩ := h
  have hset : { r with state := .healthy } ∈ c'.registry.replicas := hreg ▸ mem_setState_self hr
  refine ⟨hledger ▸ hsat, fun x hx hstate => ?_, ?_⟩
  · -- a pending replica would be the one that was set, by its id
    have hid : x.id = r.id := by
      have hx' := hx
      rw [hreg] at hx'
      rcases mem_updateFirst hx' with hx' | ⟨y, -, -, rfl⟩
      · exact hpending x hx' hstate
      · cases hstate
    simp [ReplicaRegistry.eq_of_id_eq hx hset hid] at hstate
  · have hmap : ∀ g : Replica → Nat, (∀ x : Replica, g { x with state := .healthy } = g x) →
        c'.registry.replicas.map g = c.registry.replicas.map g := by
      intro g hg
      rw [hreg]
      exact map_updateFirst hg _
    unfold Booked at hbooked ⊢
    rwa [hmap _ fun _ => rfl, hmap _ fun _ => rfl, hledger]

/-- **The books over one move of a launch.** -/
theorem mid_move {held' : Option Held} (hmove : LaunchMove limits c c' held held')
    (h : Mid limits held c) : Mid limits held' c' := by
  cases hmove with
  | reserve hspec hledger hreg => exact mid_reserve h hspec hledger hreg
  | notStarted hledger hreg => exact mid_notStarted h hledger hreg
  | register hledger hreg => exact mid_register h hledger hreg
  | keep hledger hreg => exact h.congr hreg hledger
  | rollBack hledger hreg => exact mid_rollBack h hledger hreg
  | healthy hledger hreg => exact mid_healthy h hledger hreg
  | leave hledger hreg =>
    have hsettled : Mid limits none c := h
    exact hsettled.congr hreg hledger

end

/-! ## §3. What a request does between two awaits. -/

/-- Two states that differ in what the proxy keeps for itself: the pools, the gates, the
backoffs and the clock. -/
structure Same (σ σ' : Proxy) : Prop where
  requests : σ'.requests = σ.requests
  lock : σ'.lock = σ.lock
  accepted : σ'.accepted = σ.accepted
  registry : σ'.ctl.registry = σ.ctl.registry
  ledger : σ'.ctl.ledger = σ.ctl.ledger

theorem Same.refl (σ : Proxy) : Same σ σ := ⟨rfl, rfl, rfl, rfl, rfl⟩

variable {σ σ1 : Proxy}

theorem Same.trans {σ2 : Proxy} (h : Same σ σ1) (h' : Same σ1 σ2) : Same σ σ2 :=
  ⟨h'.requests.trans h.requests, h'.lock.trans h.lock, h'.accepted.trans h.accepted,
    h'.registry.trans h.registry, h'.ledger.trans h.ledger⟩

theorem same_releaseGate (σ : Proxy) (i : Nat) (service : Uuid) :
    Same σ (σ.releaseGate i service) := by
  unfold Proxy.releaseGate
  split <;> exact ⟨rfl, rfl, rfl, rfl, rfl⟩

variable {σ' : Proxy}

theorem same_nextSocket {service : Uuid} (h : σ.nextSocket service = some (σ', socket)) :
    Same σ σ' := by
  obtain ⟨⟨pools, _⟩, -, h⟩ := Option.map_eq_some_iff.mp h
  cases h
  exact ⟨rfl, rfl, rfl, rfl, rfl⟩

theorem same_activationBackoffActive (σ : Proxy) (service : Uuid) :
    Same σ (σ.activationBackoffActive service).1 := by
  unfold Proxy.activationBackoffActive
  split
  · exact .refl σ
  · split <;> exact ⟨rfl, rfl, rfl, rfl, rfl⟩

/-- A request goes on without the controller, or with it. -/
inductive Advanced (limits : Uuid → ResourceLimits) (σ : Proxy) (i : Nat) (r : ProxyRequest)
    (σ' : Proxy) : Prop
  | background {t : ProxyRequest} (hheld : r.pc.held = none) (hheld' : t.pc.held = none)
      (hsame : Same { σ with requests := σ.requests.insert i t } σ')
  | launch {t : ProxyRequest} (hown : σ.lock = none ∨ σ.lock = some i)
      (hrequests : σ'.requests = σ.requests.insert i t)
      (haccepted : σ'.accepted = σ.accepted)
      (hlock : σ'.lock = if t.pc.held.isSome then some i else none)
      (hmove : LaunchMove limits σ.ctl σ'.ctl r.pc.held t.pc.held)

variable {env : Env} {catalog : Catalog} {i : Nat} {r : ProxyRequest}
  {pc : Pc}

/-- The same request is set in both. -/
theorem Same.put (h : Same σ σ1) (i : Nat) (t : ProxyRequest) :
    Same { σ with requests := σ.requests.insert i t }
      { σ1 with requests := σ1.requests.insert i t } :=
  ⟨congrArg (AList.insert i t) h.requests, h.lock, h.accepted, h.registry, h.ledger⟩

theorem put_advanced {r1 : ProxyRequest} (hheld : r.pc.held = none) (hheld' : pc.held = none)
    (hsame : Same σ σ1) : Advanced limits σ i r (σ1.put i r1 pc) := by
  exact .background (t := { r1 with pc := pc }) hheld hheld' (hsame.put i _)

theorem finish_advanced {result : Except ActivationError (Option String)}
    (hheld : r.pc.held = none) (hsame : Same σ σ1) :
    Advanced limits σ i r (σ1.finish i r result) := by
  have hgate := same_releaseGate (σ1.put i r (.done result)) i r.service
  exact .background (t := { r with pc := .done result }) hheld rfl ((hsame.put i _).trans hgate)

/-- An activation returns: the lock is free, and a last move is made. -/
theorem returned_advanced {result : Except ActivationError Unit}
    (hown : σ.lock = none ∨ σ.lock = some i) (hmove : LaunchMove limits σ.ctl c r.pc.held none) :
    Advanced limits σ i r ({ σ with ctl := c }.returned i r result) := by
  cases result <;> exact .launch (t := { r with pc := _ }) hown rfl rfl rfl hmove

/-- The holder of the lock goes on to its next await. -/
theorem holding_advanced (hown : σ.lock = some i) (hpc : pc.held.isSome)
    (hmove : LaunchMove limits σ.ctl c r.pc.held pc.held) :
    Advanced limits σ i r ({ σ with ctl := c }.put i r pc) := by
  refine .launch (t := { r with pc := pc }) (.inr hown) rfl rfl ?_ hmove
  show σ.lock = _
  rw [if_pos hpc, hown]

theorem activateOne_advanced (hheld : r.pc.held = none) (hlock : σ.lock = none)
    {resolved : Option ManagedService}
    (hlimits : ∀ ms, resolved = some ms → ms.limits = limits ms.serviceId) :
    Advanced limits σ i r (σ.activateOne i r resolved) := by
  -- the returns without a launch leave the controller as it is
  have hback : ∀ result, Advanced limits σ i r (σ.returned i r result) := fun result =>
    returned_advanced (.inl hlock) (by rw [hheld]; exact .keep rfl rfl)
  unfold Proxy.activateOne
  cases resolved with
  | none => exact hback _
  | some ms =>
    simp only
    split
    · exact hback _
    split
    · exact hback _
    cases hreserve : σ.ctl.reserve (launchSpec ms 0).limits with
    | none => exact hback _
    | some =>
      obtain ⟨ledger, hledger, rfl⟩ := Option.map_eq_some_iff.mp hreserve
      refine .launch (t := { r with pc := .start (launchSpec ms 0) }) (.inl hlock) rfl rfl rfl ?_
      rw [hheld]
      exact .reserve (hlimits ms rfl) hledger rfl

/-- **What a request does between two awaits**, to the lock and to the controller. -/
theorem advance_move (hcatalog : ∀ n s ms, catalog n s = some ms → ms.limits = limits ms.serviceId)
    (hown : r.pc.held.isSome → σ.lock = some i)
    (h : σ.advance env catalog i r = some σ') : Advanced limits σ i r σ' := by
  unfold Proxy.advance at h
  cases hpc : r.pc <;> simp only [hpc] at h
  -- an await with the controller in hand is one of its holder
  all_goals try have hlock : σ.lock = some i := hown (by rw [hpc]; rfl)
  all_goals try have hheld : r.pc.held = none := by rw [hpc]; rfl
  case firstSocket | secondSocket =>
    split at h <;> injection h with h <;> subst h
    next hsocket => exact finish_advanced hheld (same_nextSocket hsocket)
    next => exact put_advanced hheld rfl (.refl σ)
  case readActivator =>
    split at h <;> injection h with h <;> subst h
    · exact put_advanced hheld rfl (.refl σ)
    · exact finish_advanced hheld (.refl σ)
  case firstBackoff | secondBackoff =>
    have hsame := same_activationBackoffActive σ r.service
    split at h <;> injection h with h <;> subst h
    next hactive =>
      rw [hactive] at hsame
      exact finish_advanced hheld hsame
    next hactive =>
      rw [hactive] at hsame
      exact put_advanced hheld rfl hsame
  case activationGate =>
    cases h
    exact put_advanced hheld rfl (.refl σ)
  case gateLock =>
    split at h <;> cases h
    exact put_advanced hheld rfl ⟨rfl, rfl, rfl, rfl, rfl⟩
  case controllerLock =>
    split at h <;> cases h
    next hfree => exact activateOne_advanced hheld hfree fun ms hms => hcatalog _ _ ms hms
  case start spec =>
    cases h
    unfold Proxy.started Controller.runtimeStart
    cases env.start σ.ctl.calls spec.request with
    | error => exact returned_advanced (.inr hlock) (hpc ▸ .notStarted rfl rfl)
    | ok => exact holding_advanced hlock rfl (hpc ▸ .register rfl rfl)
  case addReplica spec replicaId socket =>
    cases h
    exact holding_advanced hlock rfl (hpc ▸ .keep rfl rfl)
  case health spec replicaId socket =>
    cases h
    unfold Proxy.checked Controller.healthCheck
    cases env.health σ.ctl.calls socket spec.healthCheck with
    | true => exact holding_advanced hlock rfl (hpc ▸ .healthy rfl rfl)
    | false => exact holding_advanced hlock rfl (hpc ▸ .keep rfl rfl)
  case rollbackStop spec replicaId =>
    cases h
    exact holding_advanced hlock rfl (hpc ▸ .rollBack rfl rfl)
  case rollbackRemove | markHealthy =>
    cases h
    exact returned_advanced (.inr hlock) (hpc ▸ .leave rfl rfl)
  case poll attempt =>
    split at h
    next hsocket =>
      cases h
      exact put_advanced hheld rfl (same_nextSocket hsocket)
    next =>
      split at h <;> injection h with h <;> subst h <;>
        exact put_advanced hheld rfl (.refl σ)
  case retryDelay =>
    split at h <;> cases h
    exact put_advanced hheld rfl (.refl σ)
  case clearFailure | recordFailure =>
    cases h
    exact finish_advanced hheld ⟨rfl, rfl, rfl, rfl, rfl⟩
  case done => cases h

/-! ## §4. Runs. -/

/-- The await is one of `launch_replica` at which a budget or a pending replica is in hand. -/
def Pc.midLaunch : Pc → Bool
  | .start _ | .addReplica _ _ _ | .health _ _ _ | .rollbackStop _ _ => true
  | _ => false

/-- The event does not cut a launch off at such an await. -/
def sparesLaunch (σ : Proxy) : ProxyEvent → Bool
  | .timeout i _ | .drop i _ =>
      match σ.requests.lookup i with
      | some r => !r.pc.midLaunch
      | none => true
  | _ => true

theorem mid_none_of_not_midLaunch (hpc : pc.midLaunch = false) (h : Mid limits pc.held c) :
    Mid limits none c := by
  cases pc <;> first | exact h | cases hpc

/-- The invariant: the monitor, and requests that are numbered as they are accepted. -/
structure ProxyInv (limits : Uuid → ResourceLimits) (σ : Proxy) : Prop where
  monitor : Monitor (fun r : ProxyRequest => r.pc.held) (Mid limits) σ.requests σ.lock σ.ctl
  numbered : ∀ i, σ.accepted ≤ i → σ.requests.lookup i = none

theorem proceed_inv (hcatalog : ∀ n s ms, catalog n s = some ms → ms.limits = limits ms.serviceId)
    (h : ProxyInv limits σ) (hr : σ.requests.lookup i = some r)
    (hadvance : σ.advance env catalog i r = some σ') : ProxyInv limits σ' := by
  have hown : r.pc.held.isSome → σ.lock = some i := (h.monitor.holder i r hr).mp
  cases advance_move hcatalog hown hadvance with
  | @background t hheld hheld' hsame =>
    constructor <;> rw [hsame.requests]
    · rw [hsame.lock]
      exact h.monitor.background hr hheld hheld' fun _ hm => hm.congr hsame.registry hsame.ledger
    · rw [hsame.accepted]
      exact Numbered.replace h.numbered hr t
  | @launch t hown hrequests haccepted hlock hmove =>
    constructor <;> rw [hrequests]
    · exact h.monitor.move hown hlock (mid_move hmove (h.monitor.mid_own hr hown))
    · rw [haccepted]
      exact Numbered.replace h.numbered hr t

theorem same_cut (σ : Proxy) (i : Nat) (r : ProxyRequest) (runtime : Runtime) :
    Same { σ with lock := if σ.lock = some i then none else σ.lock } (σ.cut i r runtime) := by
  refine ⟨rfl, rfl, rfl, ?_, ?_⟩ <;> unfold Proxy.cut <;> dsimp only <;> split <;> rfl

/-- A request is cut off, outside a launch, and another one or none takes its place. -/
theorem cut_inv {requests : AList fun _ : Nat => ProxyRequest} (h : ProxyInv limits σ)
    (hr : σ.requests.lookup i = some r) (hspare : r.pc.midLaunch = false)
    (hself : ∀ t, requests.lookup i = some t → t.pc.held = none)
    (hothers : ∀ j, j ≠ i → requests.lookup j = σ.requests.lookup j) (hsame : Same { σ with
      requests := requests, lock := if σ.lock = some i then none else σ.lock } σ') :
    ProxyInv limits σ' := by
  refine ⟨?_, fun j hj => ?_⟩
  · rw [hsame.requests, hsame.lock]
    exact h.monitor.cut hr hself hothers (fun _ hm => hm.congr hsame.registry hsame.ledger)
      (mid_none_of_not_midLaunch hspare)
  · rw [hsame.accepted] at hj
    have hlt : i < σ.accepted := Numbered.lt h.numbered hr
    rw [hsame.requests, hothers j (Nat.ne_of_gt (Nat.lt_of_lt_of_le hlt hj))]
    exact h.numbered j hj

/-- **One event keeps the books**, unless it cuts a launch. -/
theorem step_inv (hcatalog : ∀ n s ms, catalog n s = some ms → ms.limits = limits ms.serviceId)
    {event : ProxyEvent} (h : ProxyInv limits σ) (hspare : sparesLaunch σ event = true)
    (hstep : σ.step env catalog event = some σ') : ProxyInv limits σ' := by
  cases event with
  | accept =>
    cases hstep
    exact ⟨h.monitor.spawn (h.numbered _ le_rfl) rfl, Numbered.insert h.numbered _⟩
  | proceed =>
    simp only [Proxy.step] at hstep
    split at hstep
    next => cases hstep
    next r hr => exact proceed_inv hcatalog h hr hstep
  | timeout i runtime =>
    simp only [Proxy.step] at hstep
    split at hstep
    next => cases hstep
    next r hr =>
      simp only [sparesLaunch, hr, Bool.not_eq_true'] at hspare
      split at hstep <;> cases hstep
      refine cut_inv h hr hspare (fun t ht => ?_) (fun j hj => AList.lookup_insert_ne hj)
        ((same_cut σ i r runtime).put i _)
      cases (AList.lookup_insert _).symm.trans ht
      rfl
  | drop i runtime =>
    simp only [Proxy.step] at hstep
    split at hstep <;> cases hstep
    next r hr =>
      simp only [sparesLaunch, hr, Bool.not_eq_true'] at hspare
      have hcut := (same_cut σ i r runtime).trans (same_releaseGate _ i r.service)
      refine cut_inv h hr hspare (fun t ht => ?_) (fun j hj => AList.lookup_erase_ne hj)
        ⟨rfl, hcut.lock, hcut.accepted, hcut.registry, hcut.ledger⟩
      simp [AList.lookup_erase] at ht
  | elapse =>
    cases hstep
    exact ⟨h.monitor, h.numbered⟩

/-- **Activation and cancellation.**  From a settled controller, in every run of any
number of requests in which no request is cut at an await of `launch_replica` that has a
budget or a pending replica in hand, the controller is settled whenever its lock is
free. -/
theorem activation_settled {events : List ProxyEvent}
    (hcatalog : ∀ n s ms, catalog n s = some ms → ms.limits = limits ms.serviceId)
    (hstart : σ.requests = ∅ ∧ σ.lock = none ∧ Settled limits σ.ctl)
    (hsat : σ.ctl.ledger.Unsaturated)
    (hspare : Guarded (Proxy.step env catalog) (fun σ event => sparesLaunch σ event = true)
      σ events) (hrun : exec (Proxy.step env catalog) σ events = some σ') :
    σ'.lock = none → Settled limits σ'.ctl := by
  intro hfree
  obtain ⟨hempty, hlock, hsettled⟩ := hstart
  have hinit : ProxyInv limits σ := by
    refine ⟨⟨by simp [hempty], by simp [hlock], ?_⟩, by simp [hempty]⟩
    rw [hlock]
    exact ⟨hsat, hsettled⟩
  have hinv := exec_invariant (ProxyInv limits) (fun _ _ _ h hs ht => step_inv hcatalog h hs ht)
    hinit hspare hrun
  exact (hinv.monitor.mid_free hfree).2

/-! ## §5. A service that starts slowly. -/

/-- The proxy before its first request, over a host without replicas. -/
def idleProxy : Proxy where
  ctl := quietHost
  lock := none
  gates := ∅
  backoffs := ∅
  activator := true
  clock := 0
  requests := ∅
  accepted := 0

/-- One service is known, at 500 millicores. -/
def webCatalog (_ : Nat) (service : Uuid) : Option ManagedService :=
  if service = 7 then some (web ⟨500, 1024⟩) else none

/-- The first request for `web`, at the controller's lock. -/
theorem activate_uncut_web : Reaches calmEnv webCatalog 0
      { idleProxy with requests := AList.singleton 0 ⟨7, 30, .controllerLock⟩ }
      (Activated 0 ⟨7, 30, .controllerLock⟩
        (quietHost.activateOne calmEnv (some (web ⟨500, 1024⟩)))) :=
  activate_uncut (r := ⟨7, 30, .controllerLock⟩) rfl rfl

/-- What is left in the controller: the states of the replicas, and the commitment. -/
def leftover (σ : Proxy) : Option Nat × List ReplicaState × Nat :=
  (σ.lock, σ.ctl.registry.replicas.map (·.state), σ.ctl.ledger.committedCpu)

/-- The first request for `web`, up to the await of `runtime.start`. -/
def untilStart : List ProxyEvent := .accept 7 :: List.replicate 8 (.proceed 0)

/-- ... and up to the health check of its replica. -/
def untilHealthCheck : List ProxyEvent := untilStart ++ [.proceed 0, .proceed 0]

/-- **The defect.**  The health check is still waiting when the timeout of the request
elapses: the future is dropped, the rollback never runs, and the lock is free with the
replica pending.  Dropped during `runtime.start`, the request leaves a budget committed
for no replica. -/
theorem timeout_leaves_pending : (∃ σ, exec (Proxy.step calmEnv webCatalog) idleProxy
        (untilHealthCheck ++ [.elapse activationWait, .timeout 0 ⟨∅⟩]) = some σ ∧
      σ.lock = none ∧ σ.ctl.registry.replicas.map (·.state) = [.pending] ∧
      ¬ Settled (fun _ => ⟨500, 1024⟩) σ.ctl) ∧
    (∃ σ, exec (Proxy.step calmEnv webCatalog) idleProxy
        (untilStart ++ [.elapse activationWait, .timeout 0 ⟨∅⟩]) = some σ ∧
      σ.lock = none ∧ σ.ctl.registry.replicas = [] ∧
      ¬ Settled (fun _ => ⟨500, 1024⟩) σ.ctl) := by
  constructor
  · refine exists_run (fun σ => leftover σ = (none, [.pending], 500)) (by decide +kernel)
      fun σ _ hleft => ?_
    injection hleft with hlock hleft
    injection hleft with hstates
    refine ⟨hlock, hstates, fun hsettled => ?_⟩
    obtain ⟨r, hr, hstate⟩ :=
      List.mem_map.mp (hstates ▸ List.mem_singleton_self ReplicaState.pending)
    exact hsettled.1 r hr hstate
  · refine exists_run (fun σ => leftover σ = (none, [], 500)) (by decide +kernel)
      fun σ _ hleft => ?_
    injection hleft with hlock hleft
    injection hleft with hstates hcpu
    have hempty : σ.ctl.registry.replicas = [] := List.map_eq_nil_iff.mp hstates
    refine ⟨hlock, hempty, fun hsettled => ?_⟩
    have hbooked := hsettled.2.1
    rw [hempty, hcpu] at hbooked
    cases hbooked

/-- A second request arrives during the health check, waits at the gate and is dropped
there; the first one completes. -/
def droppedAtTheGate : List ProxyEvent :=
  untilHealthCheck ++ .accept 7 :: List.replicate 4 (.proceed 1) ++
    .drop 1 ⟨∅⟩ :: List.replicate 4 (.proceed 0)

/-- A request dropped outside the launch leaves a settled controller. -/
theorem activation_settled_web :
    ∃ σ, exec (Proxy.step calmEnv webCatalog) idleProxy droppedAtTheGate = some σ ∧
      σ.ctl.registry.replicas.map (·.state) = [.healthy] ∧
      Settled (fun _ => ⟨500, 1024⟩) σ.ctl := by
  refine exists_run (fun σ => leftover σ = (none, [.healthy], 500)) (by decide +kernel)
    fun σ hσ hleft => ?_
  injection hleft with hlock hleft
  injection hleft with hstates
  have hcatalog : ∀ n s ms, webCatalog n s = some ms →
      ms.limits = (fun _ : Uuid => (⟨500, 1024⟩ : ResourceLimits)) ms.serviceId := by
    intro n s ms hms
    unfold webCatalog at hms
    split at hms <;> cases hms
    rfl
  have hstart : idleProxy.requests = ∅ ∧ idleProxy.lock = none ∧
      Settled (fun _ => ⟨500, 1024⟩) idleProxy.ctl :=
    ⟨rfl, rfl, fun _ hr => absurd hr List.not_mem_nil, rfl, rfl⟩
  refine ⟨hstates, activation_settled hcatalog hstart ⟨by decide, by decide⟩ ?_ hσ hlock⟩
  exact guarded_of_checked (fun _ _ h => h) (by decide +kernel)

end Denia.Autoscale
