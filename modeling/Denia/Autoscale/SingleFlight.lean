/-
  Denia.Autoscale.SingleFlight — cold starts are single-flight and honour the backoff.

  `resolve_or_activate` reads the pool and the backoff twice, before and behind the
  activation gate of the service.  What counts is BEHIND the gate: whoever is there holds
  it, a failure is noted before it is given up, and the second look at the backoff is
  taken with it held.  The control plane may change the controller and the pools at any time.

  Main results: `advance_flight`, a request between two awaits; `gated_step` and
  `barred_step`, who holds a gate and how long a failure bars a service;
  `activation_singleFlight`.
-/
import Denia.Autoscale.Cancellation

namespace Denia.Autoscale

open Lib

/-- An event at the proxy, or a change the control plane makes to what the proxy reads. -/
inductive FlightEvent where
  | proxy (event : ProxyEvent)
  | control (ctl : Controller)

/-- One event. -/
def flightStep (env : Env) (catalog : Catalog) (σ : Proxy) : FlightEvent → Option Proxy
  | .proxy event => σ.step env catalog event
  | .control ctl => some { σ with ctl := ctl }

/-- The await is behind the activation gate. -/
def Pc.pastGate : Pc → Bool
  | .firstSocket | .readActivator | .firstBackoff | .activationGate | .gateLock | .done _ => false
  | _ => true

/-- `ActivationHook::activate` is in progress. -/
def Pc.activating : Pc → Bool
  | .controllerLock | .start _ | .addReplica _ _ _ | .health _ _ _ | .rollbackStop _ _
  | .rollbackRemove _ _ | .markHealthy _ _ => true
  | _ => false

/-- The hook has been called, and what came of it is not noted yet. -/
def Pc.underWay : Pc → Bool
  | .firstSocket | .readActivator | .firstBackoff | .activationGate | .gateLock | .secondSocket
  | .secondBackoff | .done _ => false
  | _ => true

variable {pc : Pc}

theorem Pc.underWay_of_activating (h : pc.activating = true) : pc.underWay = true := by
  cases pc <;> first | rfl | cases h

theorem Pc.pastGate_of_underWay (h : pc.underWay = true) : pc.pastGate = true := by
  cases pc <;> first | rfl | cases h

/-- The await is on the note of a failure. -/
def Pc.recording : Pc → Bool
  | .recordFailure _ => true
  | _ => false

/-- From one await to the other no gate is passed, no call begins and no failure is noted. -/
def Pc.within (pc pc' : Pc) : Bool :=
  (!pc'.pastGate || pc.pastGate) && (!pc'.activating || pc.activating) &&
    (!pc'.underWay || pc.underWay) && !pc.recording

theorem Pc.within_of_activating (h : pc.activating = true) (pc' : Pc) : pc.within pc' = true := by
  cases pc <;> first | cases h; done | simp [within, pastGate, activating, underWay, recording]

theorem Pc.within_of_inTimeout (h : pc.inTimeout = true) (e : ActivationError) :
    pc.within (.recordFailure e) = true := by
  cases pc <;> first | rfl | cases h

theorem Pc.ne_of_recording (h : pc.recording = false) (e : ActivationError) :
    pc ≠ .recordFailure e := by
  rintro rfl
  cases h

/-- No backoff of the service is running. -/
def Expired (σ : Proxy) (service : Uuid) : Prop :=
  ∀ expiry, σ.backoffs.lookup service = some expiry → expiry ≤ σ.clock

/-! ## §1. What a request does between two awaits. -/

/-- A request goes from one await to the next, as far as the gates and the backoffs are
concerned. -/
structure Flight (σ : Proxy) (i : Nat) (r : ProxyRequest) (σ' : Proxy) (r' : ProxyRequest) :
    Prop where
  requests : σ'.requests = σ.requests.insert i r'
  service : r'.service = r.service
  clock : σ'.clock = σ.clock
  accepted : σ'.accepted = σ.accepted
  others : ∀ s j, j ≠ i → σ.gates.lookup s = some j → σ'.gates.lookup s = some j
  own : r'.pc.pastGate = true →
    r.pc.pastGate = true ∧ σ'.gates = σ.gates ∨ σ'.gates.lookup r.service = some i
  begins : r'.pc.activating = true →
    r.pc.activating = true ∨ r.pc = .secondBackoff ∧ Expired σ r.service
  goesOn : r'.pc.underWay = true →
    r.pc.underWay = true ∨ r.pc = .secondBackoff ∧ Expired σ r.service
  backoffs : ∀ s, σ'.backoffs.lookup s = σ.backoffs.lookup s ∨
    s = r.service ∧ (Expired σ s ∨ r.pc.underWay = true)
  records : ∀ e, r.pc = .recordFailure e → r'.pc.underWay = false ∧
    σ'.backoffs.lookup r.service = some (σ.clock + activationFailureBackoff)

/-- Two states that differ in the controller and its lock only. -/
structure SameDesk (σ σ' : Proxy) : Prop where
  requests : σ'.requests = σ.requests
  gates : σ'.gates = σ.gates
  backoffs : σ'.backoffs = σ.backoffs
  clock : σ'.clock = σ.clock
  accepted : σ'.accepted = σ.accepted

variable {σ : Proxy} {i j : Nat} {r r' : ProxyRequest} {service : Uuid}
  {result : Except ActivationError (Option String)} {c : Controller}

section
variable {σ1 : Proxy}

theorem sameDesk_nextSocket {socket : String} (h : σ.nextSocket service = some (σ1, socket)) :
    SameDesk σ σ1 := by
  obtain ⟨⟨pools, _⟩, -, h⟩ := Option.map_eq_some_iff.mp h
  cases h
  exact ⟨rfl, rfl, rfl, rfl, rfl⟩

/-- A request that goes on within a stretch, touching neither gates nor backoffs. -/
theorem SameDesk.flight (h : SameDesk σ σ1) (pc : Pc) (hwithin : r.pc.within pc = true) :
    Flight σ i r (σ1.put i r pc) { r with pc := pc } := by
  have himp : ∀ {a b : Bool}, (!a || b) = true → a = true → b = true := by decide
  simp only [Pc.within, Bool.and_eq_true, Bool.not_eq_true'] at hwithin
  obtain ⟨⟨⟨hgate, hbegins⟩, hgoesOn⟩, hrecording⟩ := hwithin
  exact ⟨congrArg (AList.insert i _) h.requests, rfl, h.clock, h.accepted,
    fun s j _ hj => (congrArg _ h.gates).trans hj,
    fun hpc => .inl ⟨himp hgate hpc, h.gates⟩, fun hpc => .inl (himp hbegins hpc),
    fun hpc => .inl (himp hgoesOn hpc), fun s => .inl (congrArg _ h.backoffs),
    fun e he => absurd he (Pc.ne_of_recording hrecording e)⟩

/-- Giving up a gate takes it from nobody else. -/
theorem lookup_releaseGate {s : Uuid} (hne : j ≠ i) (hj : σ.gates.lookup s = some j) :
    (σ.releaseGate i service).gates.lookup s = some j := by
  unfold Proxy.releaseGate
  split
  next hmine =>
    have hother : s ≠ service := by
      rintro rfl
      exact hne (Option.some.inj (hj.symm.trans hmine))
    exact (AList.lookup_erase_ne hother).trans hj
  next => exact hj

theorem releaseGate_rest (σ : Proxy) (i : Nat) (service : Uuid) :
    (σ.releaseGate i service).requests = σ.requests ∧
      (σ.releaseGate i service).backoffs = σ.backoffs ∧
      (σ.releaseGate i service).clock = σ.clock ∧
      (σ.releaseGate i service).accepted = σ.accepted := by
  unfold Proxy.releaseGate
  split <;> exact ⟨rfl, rfl, rfl, rfl⟩

/-- `resolve_or_activate` returns, after a last change of the backoffs. -/
theorem finish_flight (h : SameDesk { σ with backoffs := σ1.backoffs } σ1)
    (hbackoffs : ∀ s, σ1.backoffs.lookup s = σ.backoffs.lookup s ∨
      s = r.service ∧ (Expired σ s ∨ r.pc.underWay = true))
    (hrecords : ∀ e, r.pc = .recordFailure e →
      σ1.backoffs.lookup r.service = some (σ.clock + activationFailureBackoff)) :
    Flight σ i r (σ1.finish i r result) { r with pc := .done result } := by
  obtain ⟨hreq, hback, hclk, hacc⟩ := releaseGate_rest (σ1.put i r (.done result)) i r.service
  refine ⟨hreq.trans (congrArg (AList.insert i _) h.requests), rfl, hclk.trans h.clock,
    hacc.trans h.accepted,
    fun s j hne hj => lookup_releaseGate hne ((congrArg _ h.gates).trans hj), nofun, nofun, nofun,
    fun s => ?_, fun e he => ⟨rfl, (congrArg _ hback).trans (hrecords e he)⟩⟩
  show (Proxy.releaseGate _ i r.service).backoffs.lookup s = _ ∨ _
  rw [hback]
  exact hbackoffs s

/-- ... without one. -/
theorem SameDesk.finish (h : SameDesk σ σ1) (hpc : r.pc.recording = false) :
    Flight σ i r (σ1.finish i r result) { r with pc := .done result } :=
  finish_flight ⟨h.requests, h.gates, rfl, h.clock, h.accepted⟩
    (fun _ => .inl (congrArg _ h.backoffs)) fun e he => absurd he (Pc.ne_of_recording hpc e)

/-- What a look at the backoff finds and leaves. -/
theorem activationBackoffActive_cases (σ : Proxy) (service : Uuid) :
    σ.activationBackoffActive service = (σ, true) ∨
      ∃ σ1, σ.activationBackoffActive service = (σ1, false) ∧ Expired σ service ∧
        SameDesk { σ with backoffs := σ1.backoffs } σ1 ∧
        ∀ s, s ≠ service → σ1.backoffs.lookup s = σ.backoffs.lookup s := by
  unfold Proxy.activationBackoffActive
  cases hlookup : σ.backoffs.lookup service with
  | none =>
    exact .inr ⟨σ, rfl, by simp [Expired, hlookup], ⟨rfl, rfl, rfl, rfl, rfl⟩, fun _ _ => rfl⟩
  | some =>
    simp only
    split
    next => exact .inl rfl
    next hpast =>
      refine .inr ⟨_, rfl, ?_, ⟨rfl, rfl, rfl, rfl, rfl⟩, fun s => AList.lookup_erase_ne⟩
      intro expiry' hexpiry
      cases hlookup.symm.trans hexpiry
      omega

/-- A request goes on after a look at the backoff that found none running. -/
theorem expired_flight (hexpired : Expired σ r.service)
    (h : SameDesk { σ with backoffs := σ1.backoffs } σ1)
    (hback : ∀ s, s ≠ r.service → σ1.backoffs.lookup s = σ.backoffs.lookup s)
    (hservice : r'.service = r.service) (hgate : r'.pc.pastGate = true → r.pc.pastGate = true)
    (hbegins : r'.pc.underWay = true → r.pc = .secondBackoff) (hnot : r.pc.recording = false) :
    Flight σ i r { σ1 with requests := σ1.requests.insert i r' } r' where
  requests := congrArg (AList.insert i _) h.requests
  service := hservice
  clock := h.clock
  accepted := h.accepted
  others s j _ hj := (congrArg _ h.gates).trans hj
  own hpc := .inl ⟨hgate hpc, h.gates⟩
  begins hpc := .inr ⟨hbegins (Pc.underWay_of_activating hpc), hexpired⟩
  goesOn hpc := .inr ⟨hbegins hpc, hexpired⟩
  backoffs s := by
    by_cases hs : s = r.service
    · exact .inr ⟨hs, .inl (hs ▸ hexpired)⟩
    · exact .inl (hback s hs)
  records e he := absurd he (Pc.ne_of_recording hnot e)

/-- The activation goes on to its next await. -/
theorem holding_flight {lock : Option Nat} (hpc : r.pc.activating = true) :
    Flight σ i r ({ σ with ctl := c, lock := lock }.put i r pc) { r with pc := pc } := by
  have hdesk : SameDesk σ { σ with ctl := c, lock := lock } := ⟨rfl, rfl, rfl, rfl, rfl⟩
  exact hdesk.flight pc (Pc.within_of_activating hpc pc)

/-- The hook returns: the request polls, or has a failure to note. -/
theorem returned_flight {result : Except ActivationError Unit} (hpc : r.pc.activating = true)
    (lock : Option Nat) :
    ∃ r', Flight σ i r ({ σ with ctl := c, lock := lock }.returned i r result) r' := by
  cases result <;> exact ⟨_, holding_flight hpc⟩

theorem activateOne_flight (hpc : r.pc.activating = true) (resolved : Option ManagedService) :
    ∃ r', Flight σ i r (σ.activateOne i r resolved) r' := by
  have hback : ∀ result, ∃ r', Flight σ i r (σ.returned i r result) r' :=
    fun result => returned_flight hpc σ.lock
  unfold Proxy.activateOne
  cases resolved with
  | none => exact hback _
  | some =>
    simp only
    repeat' split
    all_goals first | exact hback _ | exact ⟨_, holding_flight hpc⟩

end

variable {catalog : Catalog} {env : Env} {σ' : Proxy}

/-- **What a request does to the gates and the backoffs** between two awaits. -/
theorem advance_flight (h : σ.advance env catalog i r = some σ') : ∃ r', Flight σ i r σ' r' := by
  have hdesk : SameDesk σ σ := ⟨rfl, rfl, rfl, rfl, rfl⟩
  obtain ⟨service, deadline, pc⟩ := r
  cases pc <;> simp only [Proxy.advance] at h
  case firstSocket | secondSocket =>
    split at h <;> injection h with h <;> subst h
    next hnext => exact ⟨_, (sameDesk_nextSocket hnext).finish rfl⟩
    next => exact ⟨_, hdesk.flight _ rfl⟩
  case readActivator =>
    split at h <;> injection h with h <;> subst h
    · exact ⟨_, hdesk.flight .firstBackoff rfl⟩
    · exact ⟨_, hdesk.finish rfl⟩
  case firstBackoff | secondBackoff =>
    rcases activationBackoffActive_cases σ service with
      hactive | ⟨σ1, hactive, hexpired, hsame, hback⟩
    all_goals rw [hactive] at h; cases h
    · exact ⟨_, hdesk.finish rfl⟩
    · refine ⟨_, expired_flight hexpired hsame hback rfl ?_ ?_ rfl⟩
      · exact fun h => by first | rfl | cases h
      · exact fun h => by first | rfl | cases h
  case activationGate =>
    cases h
    exact ⟨_, hdesk.flight .gateLock rfl⟩
  case gateLock =>
    split at h <;> cases h
    next hfree =>
      refine ⟨⟨service, deadline, .secondSocket⟩, rfl, rfl, rfl, rfl, fun s j _ hj => ?_,
        fun _ => .inr (AList.lookup_insert _), nofun, nofun, fun _ => .inl rfl, nofun⟩
      have hs : s ≠ service := by
        rintro rfl
        simp [hfree] at hj
      exact (AList.lookup_insert_ne hs).trans hj
  case controllerLock =>
    split at h <;> cases h
    exact activateOne_flight rfl _
  case start spec =>
    cases h
    unfold Proxy.started
    split
    · exact returned_flight rfl σ.lock
    · exact ⟨_, holding_flight rfl⟩
  case addReplica | rollbackStop =>
    cases h
    exact ⟨_, holding_flight rfl⟩
  case health spec replicaId socket =>
    cases h
    unfold Proxy.checked
    split <;> exact ⟨_, holding_flight rfl⟩
  case rollbackRemove | markHealthy =>
    cases h
    exact returned_flight rfl σ.lock
  case poll attempt =>
    split at h
    next σ1 socket hnext =>
      cases h
      exact ⟨_, (sameDesk_nextSocket hnext).flight (.clearFailure socket) rfl⟩
    next => split at h <;> injection h with h <;> subst h <;> exact ⟨_, hdesk.flight _ rfl⟩
  case retryDelay attempt wake =>
    split at h <;> cases h
    exact ⟨_, hdesk.flight (.poll (attempt + 1)) rfl⟩
  -- only these two change a backoff, with the call under way
  case clearFailure socket =>
    cases h
    refine ⟨_, finish_flight ⟨rfl, rfl, rfl, rfl, rfl⟩ (fun s => ?_) nofun⟩
    exact Classical.byCases (fun hs : s = service => .inr ⟨hs, .inr rfl⟩)
      fun hs => .inl (AList.lookup_erase_ne hs)
  case recordFailure e =>
    cases h
    refine ⟨_, finish_flight ⟨rfl, rfl, rfl, rfl, rfl⟩ (fun s => ?_)
      fun _ _ => AList.lookup_insert _⟩
    exact Classical.byCases (fun hs : s = service => .inr ⟨hs, .inr rfl⟩)
      fun hs => .inl (AList.lookup_insert_ne hs)
  case done => cases h

/-! ## §2. One event. -/

/-- What an event can do to the requests, the gates and the backoffs. -/
inductive FlightMove (σ : Proxy) (event : FlightEvent) (σ' : Proxy) : Prop
  | accepts {service : Uuid}
      (hrequests : σ'.requests = σ.requests.insert σ.accepted ⟨service, 0, .firstSocket⟩)
      (haccepted : σ'.accepted = σ.accepted + 1) (hgates : σ'.gates = σ.gates)
      (hbackoffs : σ'.backoffs = σ.backoffs) (hclock : σ'.clock = σ.clock)
  | moves {i : Nat} {r r' : ProxyRequest} (hr : σ.requests.lookup i = some r)
      (hflight : Flight σ i r σ' r')
  | drops {i : Nat} {r : ProxyRequest} {runtime : Runtime}
      (hevent : event = .proxy (.drop i runtime)) (hr : σ.requests.lookup i = some r)
      (hrequests : σ'.requests = σ.requests.erase i) (haccepted : σ'.accepted = σ.accepted)
      (hgates : ∀ s j, j ≠ i → σ.gates.lookup s = some j → σ'.gates.lookup s = some j)
      (hbackoffs : σ'.backoffs = σ.backoffs) (hclock : σ'.clock = σ.clock)
  | passes (hrequests : σ'.requests = σ.requests) (haccepted : σ'.accepted = σ.accepted)
      (hgates : σ'.gates = σ.gates) (hbackoffs : σ'.backoffs = σ.backoffs)
      (hclock : σ.clock ≤ σ'.clock)

variable {event : FlightEvent}

theorem flightStep_move (h : flightStep env catalog σ event = some σ') : FlightMove σ event σ' := by
  cases event with
  | control =>
    cases h
    exact .passes rfl rfl rfl rfl (Nat.le_refl _)
  | proxy event =>
    have h : σ.step env catalog event = some σ' := h
    cases event with
    | accept =>
      cases h
      exact .accepts rfl rfl rfl rfl rfl
    | proceed =>
      unfold Proxy.step at h
      simp only at h
      split at h
      next => cases h
      next r hr =>
        obtain ⟨r', hflight⟩ := advance_flight h
        exact .moves hr hflight
    | timeout i runtime =>
      unfold Proxy.step at h
      simp only at h
      split at h
      next => cases h
      next r hr =>
        split at h <;> cases h
        next hdue =>
          have hdesk : SameDesk σ (σ.cut i r runtime) := ⟨rfl, rfl, rfl, rfl, rfl⟩
          exact .moves hr (hdesk.flight _ (Pc.within_of_inTimeout hdue.1 _))
    | drop i runtime =>
      unfold Proxy.step at h
      simp only at h
      split at h <;> cases h
      next r hr =>
        obtain ⟨-, hback, hclk, hacc⟩ := releaseGate_rest (σ.cut i r runtime) i r.service
        exact .drops rfl hr rfl hacc (fun s j hne hj => lookup_releaseGate hne hj) hback hclk
    | elapse =>
      cases h
      exact .passes rfl rfl rfl rfl (Nat.le_add_right _ _)

variable {x : ProxyRequest}

/-- The requests after an event: one of them has moved, or is new, or has gone. -/
theorem lookup_move (hmove : FlightMove σ event σ') (hx : σ'.requests.lookup j = some x) :
    σ.requests.lookup j = some x ∨ x.pc = .firstSocket ∧ j < σ'.accepted ∨
      ∃ r, σ.requests.lookup j = some r ∧ Flight σ j r σ' x := by
  cases hmove with
  | @accepts service hrequests haccepted =>
    rw [hrequests] at hx
    rcases lookup_insert_cases hx with ⟨rfl, rfl⟩ | ⟨-, hx⟩
    · exact .inr (.inl ⟨rfl, by omega⟩)
    · exact .inl hx
  | @moves i r r' hr hflight =>
    rw [hflight.requests] at hx
    rcases lookup_insert_cases hx with ⟨rfl, rfl⟩ | ⟨-, hx⟩
    · exact .inr (.inr ⟨r, hr, hflight⟩)
    · exact .inl hx
  | drops hevent hr hrequests =>
    rw [hrequests] at hx
    exact .inl (lookup_of_erase hx).2
  | passes hrequests =>
    rw [hrequests] at hx
    exact .inl hx

theorem clock_le_move (hmove : FlightMove σ event σ') : σ.clock ≤ σ'.clock := by
  cases hmove with
  | moves _ hflight => exact hflight.clock.ge
  | _ => omega

/-! ## §3. The gate. -/

/-- Requests are numbered in order, and whoever is behind a gate holds it. -/
structure Gated (σ : Proxy) : Prop where
  numbered : ∀ i r, σ.requests.lookup i = some r → i < σ.accepted
  held : ∀ i r, σ.requests.lookup i = some r → r.pc.pastGate = true →
    σ.gates.lookup r.service = some i

/-- At most one request of a service is behind its gate. -/
theorem Gated.unique (h : Gated σ) (hr : σ.requests.lookup i = some r)
    (hx : σ.requests.lookup j = some x) (hservice : r.service = x.service)
    (hri : r.pc.pastGate = true) (hxj : x.pc.pastGate = true) : i = j := by
  have hi := h.held i r hr hri
  rw [hservice, h.held j x hx hxj] at hi
  exact (Option.some.inj hi).symm

/-- **One event keeps the gates held by whoever is behind them.** -/
theorem gated_step (h : Gated σ) (hmove : FlightMove σ event σ') : Gated σ' := by
  -- the gate of a request that did not move
  have hkept : ∀ {j : Nat} {x : ProxyRequest}, σ.requests.lookup j = some x →
      σ'.requests.lookup j = some x → x.pc.pastGate = true →
      σ'.gates.lookup x.service = some j := by
    intro j x hx hx' hpast
    have hheld := h.held j x hx hpast
    cases hmove with
    | accepts _ _ hgates | passes _ _ hgates => rwa [hgates]
    | @moves i r r' hr hflight =>
      rw [hflight.requests] at hx'
      rcases lookup_insert_cases hx' with ⟨rfl, rfl⟩ | ⟨hj, -⟩
      · rcases hflight.own hpast with ⟨-, hgates⟩ | hown
        · rwa [hgates]
        · rwa [hflight.service]
      · exact hflight.others _ _ hj hheld
    | drops hevent hr hrequests _ hgates =>
      rw [hrequests] at hx'
      exact hgates _ _ (lookup_of_erase hx').1 hheld
  refine ⟨fun j x hx => ?_, fun j x hx hpast => ?_⟩
  · have hmono : σ.accepted ≤ σ'.accepted := by
      cases hmove with
      | moves _ hflight => exact hflight.accepted.ge
      | _ => omega
    rcases lookup_move hmove hx with hsame | ⟨-, hnew⟩ | ⟨r, hr, -⟩
    · exact Nat.lt_of_lt_of_le (h.numbered j x hsame) hmono
    · exact hnew
    · exact Nat.lt_of_lt_of_le (h.numbered j r hr) hmono
  · rcases lookup_move hmove hx with hsame | ⟨hfirst, -⟩ | ⟨r, hr, hflight⟩
    · exact hkept hsame hx hpast
    · rw [hfirst] at hpast
      cases hpast
    · rcases hflight.own hpast with ⟨hbefore, hgates⟩ | hown
      · rw [hflight.service, hgates]
        exact h.held j r hr hbefore
      · rwa [hflight.service]

/-! ## §4. The backoff. -/

/-- A call of the hook for the service has just failed or timed out. -/
def Fails (service : Uuid) (σ σ' : Proxy) : Prop :=
  ∃ i r r' e, σ.requests.lookup i = some r ∧ σ'.requests.lookup i = some r' ∧
    r'.service = service ∧ (∀ e', r.pc ≠ .recordFailure e') ∧ r'.pc = .recordFailure e

/-- A call of the hook for the service has just begun. -/
def Begins (service : Uuid) (σ σ' : Proxy) : Prop :=
  ∃ i r r', σ.requests.lookup i = some r ∧ σ'.requests.lookup i = some r' ∧
    r.service = service ∧ r.pc.activating = false ∧ r'.pc.activating = true

/-- No request is dropped between the failure of its call and the note of it. -/
def FailureNoted (σ : Proxy) (event : FlightEvent) : Prop :=
  ∀ i runtime r e, event = .proxy (.drop i runtime) → σ.requests.lookup i = some r →
    r.pc ≠ .recordFailure e

/-- The service is barred up to `time`: that has passed, or the failure is about to be
noted by the one request behind the gate, or it is noted and no call is under way. -/
inductive Barred (service : Uuid) (time : Nat) (σ : Proxy) : Prop
  | passed (hclock : time ≤ σ.clock)
  | noting {i : Nat} {r : ProxyRequest} {e : ActivationError}
      (hr : σ.requests.lookup i = some r) (hservice : r.service = service)
      (hpc : r.pc = .recordFailure e) (hclock : time ≤ σ.clock + activationFailureBackoff)
  | noted {expiry : Nat} (hlookup : σ.backoffs.lookup service = some expiry)
      (hexpiry : time ≤ expiry)
      (hquiet : ∀ i r, σ.requests.lookup i = some r → r.service = service →
        r.pc.underWay = false)

section
variable {time : Nat}

/-- A request that no event has moved is where it was. -/
theorem lookup_move_of_ne (h : Gated σ) (hmove : FlightMove σ event σ')
    (hr : σ.requests.lookup i = some r) :
    σ'.requests.lookup i = some r ∨ (∃ r', Flight σ i r σ' r') ∨
      ∃ runtime, event = .proxy (.drop i runtime) := by
  cases hmove with
  | accepts hrequests =>
    have hne : i ≠ σ.accepted := Nat.ne_of_lt (h.numbered i r hr)
    rw [hrequests, AList.lookup_insert_ne hne]
    exact .inl hr
  | @moves j x x' hx hflight =>
    by_cases hj : i = j
    · subst hj
      cases hr.symm.trans hx
      exact .inr (.inl ⟨x', hflight⟩)
    · rw [hflight.requests, AList.lookup_insert_ne hj]
      exact .inl hr
  | @drops j x runtime hevent hx hrequests =>
    by_cases hj : i = j
    · subst hj
      exact .inr (.inr ⟨runtime, hevent⟩)
    · rw [hrequests, AList.lookup_erase_ne hj]
      exact .inl hr
  | passes hrequests =>
    rw [hrequests]
    exact .inl hr

/-- The one behind the gate notes its failure, and nobody is under way. -/
theorem barred_noted (h : Gated σ) {e : ActivationError} (hr : σ.requests.lookup i = some r)
    (hservice : r.service = service) (hpc : r.pc = .recordFailure e)
    (hclock : time ≤ σ.clock + activationFailureBackoff) (hflight : Flight σ i r σ' r') :
    Barred service time σ' := by
  obtain ⟨hafter, hrecorded⟩ := hflight.records e hpc
  rw [hservice] at hrecorded
  refine .noted hrecorded hclock fun j x hx hxs => ?_
  rw [hflight.requests] at hx
  rcases lookup_insert_cases hx with ⟨rfl, rfl⟩ | ⟨hj, hx⟩
  · exact hafter
  · -- it did not move, and it was not behind the gate
    by_contra hunder
    have hunder : x.pc.underWay = true := by simpa using hunder
    have hpast : r.pc.pastGate = true := by rw [hpc]; rfl
    exact hj (h.unique hx hr (hxs.trans hservice.symm) (Pc.pastGate_of_underWay hunder) hpast)

/-- **One event keeps the service barred.** -/
theorem barred_step (h : Gated σ) (hmove : FlightMove σ event σ') (hnoted : FailureNoted σ event)
    (hbarred : Barred service time σ) : Barred service time σ' := by
  have hclk := clock_le_move hmove
  cases hbarred with
  | passed hclock => exact .passed (hclock.trans hclk)
  | @noting i r e hr hservice hpc hclock =>
    rcases lookup_move_of_ne h hmove hr with hsame | ⟨r', hflight⟩ | ⟨runtime, hevent⟩
    · exact .noting hsame hservice hpc (by omega)
    · exact barred_noted h hr hservice hpc hclock hflight
    · exact absurd hpc (hnoted i runtime r e hevent hr)
  | @noted expiry hlookup hexpiry hquiet =>
    by_cases hexpired : Expired σ service
    · exact .passed ((hexpiry.trans (hexpired expiry hlookup)).trans hclk)
    · -- the backoff is still running: it is not touched, and no call begins
      have hquiet' : ∀ i r, σ'.requests.lookup i = some r → r.service = service →
          r.pc.underWay = false := by
        intro i x hx hxs
        rcases lookup_move hmove hx with hsame | ⟨hfirst, -⟩ | ⟨r, hr, hflight⟩
        · exact hquiet i x hsame hxs
        · rw [hfirst]
          rfl
        · by_contra hunder
          have hunder : x.pc.underWay = true := by simpa using hunder
          have hrs : r.service = service := hflight.service.symm.trans hxs
          rcases hflight.goesOn hunder with hbefore | ⟨-, hexp⟩
          · simp [hquiet i r hr hrs] at hbefore
          · exact hexpired (hrs ▸ hexp)
      have hlookup' : σ'.backoffs.lookup service = some expiry := by
        cases hmove with
        | accepts _ _ _ hbackoffs | drops _ _ _ _ _ hbackoffs | passes _ _ _ hbackoffs =>
          rwa [hbackoffs]
        | @moves i r r' hr hflight =>
          rcases hflight.backoffs service with hsame | ⟨hs, hexp | hunder⟩
          · rwa [hsame]
          · exact absurd hexp hexpired
          · simp [hquiet i r hr hs.symm] at hunder
      exact .noted hlookup' hexpiry hquiet'

/-- A call that begins finds the bar lifted. -/
theorem Barred.begins (hbarred : Barred service time σ) (h : Gated σ)
    (hmove : FlightMove σ event σ') (hbegins : Begins service σ σ') : time ≤ σ.clock := by
  obtain ⟨i, r, r', hr, hr', hservice, hbefore, hafter⟩ := hbegins
  have hflight : Flight σ i r σ' r' := by
    rcases lookup_move hmove hr' with hsame | ⟨hfirst, -⟩ | ⟨x, hx, hflight⟩
    · cases hr.symm.trans hsame
      simp [hbefore] at hafter
    · rw [hfirst] at hafter
      cases hafter
    · cases hr.symm.trans hx
      exact hflight
  rcases hflight.begins hafter with hactivating | ⟨hpc, hexpired⟩
  · simp [hbefore] at hactivating
  · have hpast : r.pc.pastGate = true := by rw [hpc]; rfl
    cases hbarred with
    | passed hclock => exact hclock
    | @noting j x e hxj hxs hxpc hclock =>
      -- the gate is held by the one that has a failure to note
      have hxpast : x.pc.pastGate = true := by rw [hxpc]; rfl
      obtain rfl := h.unique hr hxj (hservice.trans hxs.symm) hpast hxpast
      cases hr.symm.trans hxj
      cases hpc.symm.trans hxpc
    | @noted expiry hlookup hexpiry hquiet =>
      exact hexpiry.trans (hexpired expiry (hservice ▸ hlookup))

end

/-! ## §5. Every interleaving. -/

/-- **Cold starts are single-flight and honour the backoff.**  In every interleaving: at
most one call of the hook per service is in progress; after a call that failed or timed
out at time `t` none begins before `t + ACTIVATION_FAILURE_BACKOFF`, unless its caller is
dropped before it has noted the failure; and a request that has the gate, with a healthy
endpoint present, returns a socket at its next await. -/
theorem activation_singleFlight (env : Env) (catalog : Catalog)
    (start σ : Proxy) (events : List FlightEvent) (hidle : start.requests = ∅)
    (hrun : exec (flightStep env catalog) start events = some σ) (service : Uuid) :
    (∀ i j r x, σ.requests.lookup i = some r → σ.requests.lookup j = some x →
      r.service = service → x.service = service → r.pc.activating = true →
      x.pc.activating = true → i = j) ∧
    (∀ event σ' later τ next τ', flightStep env catalog σ event = some σ' →
      Fails service σ σ' → exec (flightStep env catalog) σ' later = some τ →
      Guarded (flightStep env catalog) FailureNoted σ' later →
      flightStep env catalog τ next = some τ' → Begins service τ τ' →
      σ.clock + activationFailureBackoff ≤ τ.clock) ∧
    (∀ i r, σ.requests.lookup i = some r → r.service = service → r.pc = .secondSocket →
      (∃ e ∈ σ.ctl.ingress.endpoints service, e.healthy = true) →
      ∃ σ' socket, flightStep env catalog σ (.proxy (.proceed i)) = some σ' ∧
        σ'.requests.lookup i = some { r with pc := .done (.ok (some socket)) }) := by
  have hinit : Gated start := by
    constructor <;> simp [hidle]
  have hgated : Gated σ :=
    exec_invariant_all Gated (fun _ _ _ h hstep => gated_step h (flightStep_move hstep)) hinit hrun
  refine ⟨?_, ?_, ?_⟩
  · intro i j r x hr hx hrs hxs hri hxj
    exact hgated.unique hr hx (hrs.trans hxs.symm)
      (Pc.pastGate_of_underWay (Pc.underWay_of_activating hri))
      (Pc.pastGate_of_underWay (Pc.underWay_of_activating hxj))
  · intro event σ' later τ next τ' hstep hfails hlater hnoted hnext hbegins
    have hmove := flightStep_move hstep
    obtain ⟨i, r, r', e, -, hr', hservice, -, hpc⟩ := hfails
    have hbarred : Barred service (σ.clock + activationFailureBackoff) σ' :=
      .noting hr' hservice hpc (Nat.add_le_add_right (clock_le_move hmove) _)
    -- the failure bars the service until a call is past the time
    have hend : Gated τ ∧ Barred service (σ.clock + activationFailureBackoff) τ := by
      refine exec_invariant (fun σ => Gated σ ∧ Barred service _ σ) ?_
        ⟨gated_step hgated hmove, hbarred⟩ hnoted hlater
      intro σ1 event1 σ2 hinv hguard hstep1
      have hmove1 := flightStep_move hstep1
      exact ⟨gated_step hinv.1 hmove1, barred_step hinv.1 hmove1 hguard hinv.2⟩
    exact hend.2.begins hend.1 (flightStep_move hnext) hbegins
  · intro i r hr hservice hpc hhealthy
    have hsome := Pools.nextSocket_isSome hhealthy σ.clock
    obtain ⟨⟨pools, socket⟩, hnext⟩ := Option.isSome_iff_exists.mp hsome
    set σ1 : Proxy := { σ with ctl := { σ.ctl with ingress := pools } } with hσ1
    have hfound : σ.nextSocket r.service = some (σ1, socket) := by
      unfold Proxy.nextSocket
      rw [hservice, hnext]
      rfl
    refine ⟨σ1.finish i r (.ok (some socket)), socket, ?_, ?_⟩
    · show σ.step env catalog (.proceed i) = _
      unfold Proxy.step Proxy.advance
      simp only [hr, hpc, hfound]
    · obtain ⟨hreq, -⟩ := releaseGate_rest (σ1.put i r (.done (.ok (some socket)))) i r.service
      rw [Proxy.finish, hreq]
      exact AList.lookup_insert _

/-- Two requests for `web`: one is at the health check of its replica, the other waits at
the gate. -/
def twoRequests : List FlightEvent :=
  (untilHealthCheck ++ ProxyEvent.accept 7 :: List.replicate 4 (ProxyEvent.proceed 1)).map .proxy

/-- The failure is noted and the other one turned away; a third one takes its second look at
the backoff when that has passed. -/
def retried : List FlightEvent :=
  (ProxyEvent.proceed 0 :: List.replicate 3 (ProxyEvent.proceed 1) ++
    ProxyEvent.elapse activationFailureBackoff :: ProxyEvent.accept 7 ::
      List.replicate 6 (ProxyEvent.proceed 2)).map .proxy

/-- Where a request stands. -/
def standing (σ : Proxy) (i : Nat) : Option (Uuid × Pc) :=
  (σ.requests.lookup i).map fun r => (r.service, r.pc)

/-- The event drops a request. -/
def FlightEvent.isDrop : FlightEvent → Bool
  | .proxy (.drop _ _) => true
  | _ => false

theorem failureNoted_of_not_drop (h : (!event.isDrop) = true) : FailureNoted σ event := by
  rintro i runtime r e rfl
  cases h

theorem fails_of_standing {e : ActivationError} (hbefore : standing σ i = some (service, pc))
    (hpc : pc.recording = false) (hafter : standing σ' i = some (service, .recordFailure e)) :
    Fails service σ σ' := by
  obtain ⟨r, hr, hrpc⟩ := Option.map_eq_some_iff.mp hbefore
  obtain ⟨r', hr', hrpc'⟩ := Option.map_eq_some_iff.mp hafter
  cases hrpc
  injection hrpc' with hservice hpc'
  exact ⟨i, r, r', e, hr, hr', hservice, Pc.ne_of_recording hpc, hpc'⟩

theorem begins_of_standing {pc' : Pc} (hbefore : standing σ i = some (service, pc))
    (hpc : pc.activating = false) (hafter : standing σ' i = some (service, pc'))
    (hpc' : pc'.activating = true) : Begins service σ σ' := by
  obtain ⟨r, hr, hrpc⟩ := Option.map_eq_some_iff.mp hbefore
  obtain ⟨r', hr', hrpc'⟩ := Option.map_eq_some_iff.mp hafter
  cases hrpc
  injection hrpc' with hservice hrpc'
  exact ⟨i, r, r', hr, hr', rfl, hpc, hrpc' ▸ hpc'⟩

/-- The other request can not call the hook as well; when the first call has timed out the
third one's begins after the backoff; and when the first one has succeeded the other one finds
its replica. -/
theorem activation_singleFlight_web :
    (∃ σ, exec (flightStep calmEnv webCatalog) idleProxy twoRequests = some σ ∧
      (standing σ 0).map (·.2.activating) = some true ∧ standing σ 1 = some (7, .gateLock) ∧
      ∀ i j r x, σ.requests.lookup i = some r → σ.requests.lookup j = some x →
        r.service = 7 → x.service = 7 → r.pc.activating = true → x.pc.activating = true →
        i = j) ∧
    (∃ σ σ' τ τ', exec (flightStep calmEnv webCatalog) idleProxy
        (twoRequests ++ [.proxy (.elapse activationWait)]) = some σ ∧
      flightStep calmEnv webCatalog σ (.proxy (.timeout 0 ⟨∅⟩)) = some σ' ∧ Fails 7 σ σ' ∧
      exec (flightStep calmEnv webCatalog) σ' retried = some τ ∧
      flightStep calmEnv webCatalog τ (.proxy (.proceed 2)) = some τ' ∧ Begins 7 τ τ' ∧
      σ.clock + activationFailureBackoff ≤ τ.clock) ∧
    ∃ σ, exec (flightStep calmEnv webCatalog) idleProxy
        (twoRequests ++ List.replicate 4 (.proxy (.proceed 0)) ++ [.proxy (.proceed 1)]) = some σ ∧
      ∃ σ' socket, flightStep calmEnv webCatalog σ (.proxy (.proceed 1)) = some σ' ∧
        standing σ' 1 = some (7, .done (.ok (some socket))) := by
  refine ⟨?_, ?_, ?_⟩
  · refine exists_run (fun σ => (standing σ 0).map (·.2.activating) = some true ∧
      standing σ 1 = some (7, .gateLock)) (by decide +kernel) fun σ hσ hend => ⟨hend.1, hend.2, ?_⟩
    exact (activation_singleFlight calmEnv webCatalog idleProxy σ twoRequests rfl hσ 7).1
  · have hevaluated : ∃ σ ∈ exec (flightStep calmEnv webCatalog) idleProxy
          (twoRequests ++ [.proxy (.elapse activationWait)]),
        ∃ σ' ∈ flightStep calmEnv webCatalog σ (.proxy (.timeout 0 ⟨∅⟩)),
          (standing σ 0).map (fun p => (p.1, p.2.recording)) = some (7, false) ∧
          standing σ' 0 = some (7, .recordFailure .timeout) ∧
          checked (flightStep calmEnv webCatalog) (fun _ e => !e.isDrop) σ' retried = true ∧
          ((exec (flightStep calmEnv webCatalog) σ' retried).bind fun τ =>
            (flightStep calmEnv webCatalog τ (.proxy (.proceed 2))).map fun τ' =>
              (standing τ 2, standing τ' 2)) =
            some (some (7, .secondBackoff), some (7, .controllerLock)) := by
      decide +kernel
    obtain ⟨σ, hσ, σ', hσ', h0, hfailed, hcheck, hlater⟩ := hevaluated
    obtain ⟨τ, hτ, hlater⟩ := Option.bind_eq_some_iff.mp hlater
    obtain ⟨τ', hτ', hpair⟩ := Option.map_eq_some_iff.mp hlater
    obtain ⟨hlook, hcalls⟩ := Prod.mk.inj hpair
    obtain ⟨⟨service, pc⟩, hbefore, hpair⟩ := Option.map_eq_some_iff.mp h0
    obtain ⟨rfl, hpc⟩ := Prod.mk.inj hpair
    have hfails := fails_of_standing hbefore hpc hfailed
    have hbegins := begins_of_standing hlook rfl hcalls rfl
    refine ⟨σ, σ', τ, τ', hσ, hσ', hfails, hτ, hτ', hbegins, ?_⟩
    refine (activation_singleFlight calmEnv webCatalog idleProxy σ _ rfl hσ 7).2.1 _ _ _ _ _ _ hσ'
      hfails hτ ?_ hτ' hbegins
    exact guarded_of_checked (fun _ _ => failureNoted_of_not_drop) hcheck
  · refine exists_run (fun σ => standing σ 1 = some (7, .secondSocket) ∧
      ∃ e ∈ σ.ctl.ingress.endpoints 7, e.healthy = true) (by decide +kernel) fun σ hσ hend => ?_
    obtain ⟨r, hr, hpair⟩ := Option.map_eq_some_iff.mp hend.1
    obtain ⟨hservice, hpc⟩ := Prod.mk.inj hpair
    obtain ⟨σ', socket, hstep, hdone⟩ :=
      (activation_singleFlight calmEnv webCatalog idleProxy σ _ rfl hσ 7).2.2 1 r hr hservice hpc
        hend.2
    refine ⟨σ', socket, hstep, ?_⟩
    unfold standing
    rw [hdone, Option.map_some, hservice]

end Denia.Autoscale
