/-
  Denia.Deploy.DomainVerification — concurrent `verify_service_domain` requests
  (`src/api/domains.rs`).

  A request reads its domain row, puts the row's id into `verifying_domains`, asks the
  verifier, takes the id out again and only THEN writes the status.  Each call is one step.
  The set keeps verifier calls of one row apart.  It does not protect the status: a request
  that read the row before another one settled it enters the set later, and its failure
  overwrites the success.

  Main results: `advance_move`, a request between two calls; `verifyServiceDomain_alone`,
  nobody interrupts it; `verified_until_deleted`; `late_failure_overwrites`.
-/
import Denia.Deploy.Api
import Denia.Lib.Interleave
import Mathlib.Data.Finset.Basic

namespace Denia.Deploy

open Lib Verification

/-! ## §1. The requests. -/

/-- The call a `verify_service_domain` request makes next. -/
inductive VerifyPc where
  | getService
  | getServiceDomain
  | insertGuard (d : ServiceDomain)
  | verify (d : ServiceDomain)
  | removeGuard (d : ServiceDomain) (verified : Bool)
  | updateStatus (d : ServiceDomain) (verified : Bool)
  | applyRoutes (d : ServiceDomain)
  | reread (d : ServiceDomain)
  | done (result : Except ApiError ServiceDomain)
  | dropped

/-- A request and where it stands. -/
structure VerifyRequest where
  serviceId : Uuid
  domainId : Uuid
  pc : VerifyPc

/-- What the requests share: the control plane and `verifying_domains`. -/
structure VerifyShared where
  world : World
  verifyingDomains : Finset Uuid

/-- How a call ends.  Only the verifier is awaited, so only there the client can go away
and take the request with it. -/
inductive CallAnswer where
  | ok
  | fails (reason : String)
  | dropped

/-- What happens to domain rows apart from verification, and everything else. -/
inductive DomainChange where
  | createDomain (serviceId : Uuid) (hostname : Hostname)
  | deleteDomain (domainId : Uuid)
  | other (world : World)

namespace VerifyRequest

/-- On to another call. -/
def goTo (r : VerifyRequest) (pc : VerifyPc) : VerifyRequest := { r with pc := pc }

/-- The request returns. -/
def finish (r : VerifyRequest) (result : Except ApiError ServiceDomain) : VerifyRequest :=
  r.goTo (.done result)

/-- The row has been read. -/
def afterRead (cfg : ApiConfig) (r : VerifyRequest) (d : ServiceDomain) : VerifyRequest :=
  if d.serviceId ≠ r.serviceId then r.finish (.error (.notFound "domain not found"))
  else if cfg.controlDomain = some d.hostname.name then
    r.finish (.error (.conflict "hostname is reserved for the control plane"))
  else if d.status = .verified then r.finish (.ok d)
  else r.goTo (.insertGuard d)

/-- The next call, if it succeeds. -/
def proceed (cfg : ApiConfig) (s : VerifyShared) (r : VerifyRequest) :
    Option (VerifyShared × VerifyRequest) :=
  match r.pc with
  | .getService =>
      match s.world.store.getService r.serviceId with
      | none => some (s, r.finish (.error (.notFound "service not found")))
      | some _ => some (s, r.goTo .getServiceDomain)
  | .getServiceDomain =>
      match s.world.store.getServiceDomain r.domainId with
      | none => some (s, r.finish (.error (.notFound "domain not found")))
      | some d => some (s, r.afterRead cfg d)
  | .insertGuard d =>
      if d.id ∈ s.verifyingDomains then
        some (s, r.finish (.error (.conflict "domain verification already in progress")))
      else
        some ({ s with verifyingDomains := insert d.id s.verifyingDomains }, r.goTo (.verify d))
  | .verify d => some (s, r.goTo (.removeGuard d true))
  | .removeGuard d verified =>
      some ({ s with verifyingDomains := s.verifyingDomains.erase d.id },
        r.goTo (.updateStatus d verified))
  | .updateStatus d true =>
      some ({ s with world := s.world.onStore (·.updateServiceDomainStatus d.id .verified) },
        r.goTo (.applyRoutes d))
  | .updateStatus d false =>
      some ({ s with world := s.world.onStore (·.updateServiceDomainStatus d.id .failed) },
        r.goTo (.reread d))
  | .applyRoutes d =>
      match s.world.applyRoutes with
      | (w, .ok ()) => some ({ s with world := w }, r.goTo (.reread d))
      | (w, .error e) => some ({ s with world := w }, r.finish (.error (.deploy e)))
  | .reread d =>
      match s.world.store.getServiceDomain d.id with
      | none => some (s, r.finish (.error (.notFound "domain not found")))
      | some d => some (s, r.finish (.ok d))
  | .done _ | .dropped => none

/-- The next call fails.  A verifier that fails is an answer like any other; a failed
read or write of the database ends the request. -/
def fail (r : VerifyRequest) (reason : String) : Option VerifyRequest :=
  match r.pc with
  | .getService | .getServiceDomain | .updateStatus _ _ | .reread _ =>
      some (r.finish (.error (.repo reason)))
  | .applyRoutes _ => some (r.finish (.error (.deploy (.repo reason))))
  | .verify d => some (r.goTo (.removeGuard d false))
  | .insertGuard _ | .removeGuard _ _ | .done _ | .dropped => none

/-- The request is dropped while it waits for the verifier; the set keeps the id. -/
def drop (r : VerifyRequest) : Option VerifyRequest :=
  match r.pc with
  | .verify _ => some (r.goTo .dropped)
  | _ => none

/-- One call of a request. -/
def advance (cfg : ApiConfig) (s : VerifyShared) (r : VerifyRequest) :
    CallAnswer → Option (VerifyShared × VerifyRequest)
  | .ok => r.proceed cfg s
  | .fails reason => (r.fail reason).map fun r' => (s, r')
  | .dropped => r.drop.map fun r' => (s, r')

end VerifyRequest

open VerifyRequest

/-- A change from outside; `other` leaves the domain rows alone. -/
def DomainChange.apply (s : VerifyShared) : DomainChange → Option VerifyShared
  | .createDomain serviceId hostname =>
      (s.world.store.putServiceDomain serviceId hostname).map fun db =>
        { s with world := s.world.onStore fun _ => db }
  | .deleteDomain id => some { s with world := s.world.onStore (·.deleteServiceDomain id) }
  | .other w =>
      if w.store.domains = s.world.store.domains then some { s with world := w } else none

/-- All requests of the handler, over one control plane. -/
def verifyProgram (cfg : ApiConfig) :
    Program VerifyShared VerifyRequest (Uuid × Uuid) CallAnswer DomainChange where
  start ids := ⟨ids.1, ids.2, .getService⟩
  advance s r := r.advance cfg s
  outer := DomainChange.apply

/-! ## §2. The status of a row. -/

namespace Store

/-- The status of a row. -/
def statusOf (db : Store) (id : Uuid) : Option DomainStatus :=
  (db.getServiceDomain id).map (·.status)

theorem statusOf_updateServiceDomainStatus (db : Store) (x : Uuid) (status : DomainStatus)
    (id : Uuid) : (db.updateServiceDomainStatus x status).statusOf id
      = if id = x then (db.statusOf id).map fun _ => status else db.statusOf id := by
  unfold statusOf getServiceDomain updateServiceDomainStatus
  simp only
  split
  next h =>
    subst h
    rw [find?_updateFirst (by exact fun _ => rfl), Option.map_map, Option.map_map]
    rfl
  next h =>
    rw [find?_updateFirst_of_ne (by exact fun _ => rfl)]
    intro d hd
    have hd : d.id = x := by simpa using hd
    simpa [hd] using Ne.symm h

theorem statusOf_deleteServiceDomain (db : Store) (x id : Uuid) :
    (db.deleteServiceDomain x).statusOf id = if id = x then none else db.statusOf id := by
  unfold statusOf getServiceDomain deleteServiceDomain
  rw [List.find?_filter]
  split
  next h =>
    subst h
    rw [Option.map_eq_none_iff, List.find?_eq_none]
    simp
  next h =>
    congr 2
    funext d
    by_cases hd : d.id = id
    · simp [hd, h]
    · simp [hd]

/-- A new row is pending, and takes no other row's place. -/
theorem statusOf_putServiceDomain {db db' : Store} {serviceId : Uuid} {hostname : Hostname}
    (h : db.putServiceDomain serviceId hostname = some db') (id : Uuid) :
    db'.statusOf id = db.statusOf id ∨
      db.statusOf id = none ∧ db'.statusOf id = some .pending := by
  unfold putServiceDomain at h
  split at h <;> cases h
  unfold statusOf getServiceDomain
  simp only [List.find?_append]
  cases hfind : db.domains.find? (·.id = id) with
  | some => exact .inl rfl
  | none =>
    simp only [Option.none_or, List.find?_cons]
    split
    · exact .inr ⟨rfl, rfl⟩
    · exact .inl rfl

end Store

/-- The status in the database. -/
abbrev VerifyShared.statusOf (s : VerifyShared) (id : Uuid) : Option DomainStatus :=
  s.world.store.statusOf id

/-! ## §3. What a request does between two calls. -/

/-- The row whose id the request has in the set. -/
def VerifyPc.held : VerifyPc → Option Uuid
  | .verify d | .removeGuard d _ => some d.id
  | _ => none

/-- The row the request has an answer to come for, or to write. -/
def VerifyPc.unsettled : VerifyPc → Option Uuid
  | .verify d | .removeGuard d _ | .updateStatus d _ => some d.id
  | _ => none

theorem VerifyPc.held_of_unsettled_none {pc : VerifyPc} (h : pc.unsettled = none) :
    pc.held = none := by
  cases pc <;> first | rfl | cases h

/-- What one call does, as far as the set and the rows are concerned. -/
inductive VerifyMove (s : VerifyShared) (r : VerifyRequest) :
    VerifyShared → VerifyRequest → Prop
  | insert {r'} (d : ServiceDomain) (hpc : r.pc = .insertGuard d)
      (hfree : d.id ∉ s.verifyingDomains)
      (hpc' : r'.pc = .verify d) :
      VerifyMove s r { s with verifyingDomains := insert d.id s.verifyingDomains } r'
  | answer {r'} (d : ServiceDomain) (verified : Bool) (hpc : r.pc = .verify d)
      (hpc' : r'.pc = .removeGuard d verified) : VerifyMove s r s r'
  | remove {r'} (d : ServiceDomain) (verified : Bool) (hpc : r.pc = .removeGuard d verified)
      (hpc' : r'.pc = .updateStatus d verified) :
      VerifyMove s r { s with verifyingDomains := s.verifyingDomains.erase d.id } r'
  | write {r'} (d : ServiceDomain) (verified : Bool) (status : DomainStatus)
      (hpc : r.pc = .updateStatus d verified) (hpc' : r'.pc.unsettled = none) :
      VerifyMove s r { s with world := s.world.onStore (·.updateServiceDomainStatus d.id status) }
        r'
  | quiet {s' r'} (hguards : s'.verifyingDomains = s.verifyingDomains)
      (hstore : s'.world.store = s.world.store) (hpc' : r'.pc.unsettled = none) :
      VerifyMove s r s' r'

theorem applyRoutes_store (w : World) : w.applyRoutes.1.store = w.store := by
  unfold World.applyRoutes World.rebuild World.putSnapshot
  simp only
  split <;> rfl

theorem afterRead_unsettled (cfg : ApiConfig) (r : VerifyRequest) (d : ServiceDomain) :
    (r.afterRead cfg d).pc.unsettled = none := by
  unfold afterRead
  repeat' split
  all_goals rfl

variable {s s' : VerifyShared} {r r' p : VerifyRequest}
  {events : List (Event (Uuid × Uuid) CallAnswer DomainChange)}
  {σ : System VerifyShared VerifyRequest} {cfg : ApiConfig}

theorem proceed_move (h : r.proceed cfg s = some (s', r')) : VerifyMove s r s' r' := by
  unfold proceed at h
  split at h
  next => -- getService
    split at h <;> (cases h; exact .quiet rfl rfl rfl)
  next => -- getServiceDomain
    split at h <;> cases h
    · exact .quiet rfl rfl rfl
    · exact .quiet rfl rfl (afterRead_unsettled cfg r _)
  next d hpc => -- insertGuard
    split at h <;> cases h
    · exact .quiet rfl rfl rfl
    next hfree => exact .insert d hpc hfree rfl
  next d hpc => -- verify
    cases h
    exact .answer d true hpc rfl
  next d verified hpc => -- removeGuard
    cases h
    exact .remove d verified hpc rfl
  next d hpc => -- updateStatus, verified
    cases h
    exact .write d true .verified hpc rfl
  next d hpc => -- updateStatus, failed
    cases h
    exact .write d false .failed hpc rfl
  next => -- applyRoutes
    have hstore := applyRoutes_store s.world
    split at h <;> rename_i hroutes <;> rw [hroutes] at hstore <;>
      (cases h; exact .quiet rfl hstore rfl)
  next => -- reread
    split at h <;> (cases h; exact .quiet rfl rfl rfl)
  next => cases h
  next => cases h

variable {answer : CallAnswer}

/-- **What a request does between two calls.** -/
theorem advance_move (h : r.advance cfg s answer = some (s', r')) : VerifyMove s r s' r' := by
  cases answer with
  | ok => exact proceed_move h
  | fails =>
    obtain ⟨r1, hfail, heq⟩ := Option.map_eq_some_iff.mp h
    cases heq
    unfold fail at hfail
    split at hfail
    -- only a verifier that fails leaves the row unsettled
    all_goals
      first
      | (cases hfail; exact .quiet rfl rfl rfl)
      | (cases hfail; exact .answer _ false (by assumption) rfl)
      | cases hfail
  | dropped =>
    obtain ⟨r1, hdrop, heq⟩ := Option.map_eq_some_iff.mp h
    cases heq
    unfold drop at hdrop
    split at hdrop <;> cases hdrop
    exact .quiet rfl rfl rfl

/-! ## §4. A request that nobody interrupts. -/

/-- One call of a request, with nobody else around. -/
def VerifyRequest.alone (cfg : ApiConfig) (x : VerifyShared × VerifyRequest) (answer : CallAnswer) :
    Option (VerifyShared × VerifyRequest) :=
  x.2.advance cfg x.1 answer

variable {d : ServiceDomain}

/-- A row is still there after its status is written. -/
theorem getServiceDomain_updateStatus {db : Store} {id : Uuid} (h : db.getServiceDomain id = some d)
    (status : DomainStatus) : (db.updateServiceDomainStatus id status).getServiceDomain id
      = some { d with status := status } := by
  unfold Store.getServiceDomain Store.updateServiceDomainStatus at *
  simp only
  rw [find?_updateFirst, h]
  · rfl
  · exact fun _ => rfl

variable {d' : ServiceDomain}

section
variable (cfg : ApiConfig) (w : World) (guards : Finset Uuid) (serviceId domainId : Uuid)

/-- From the set to the status: the set is as before, the status is to be written. -/
theorem alone_verified (hfree : d.id ∉ guards) (verified : Bool) (answers : List CallAnswer) :
    exec (alone cfg) (⟨w, guards⟩, ⟨serviceId, domainId, .insertGuard d⟩)
        (.ok :: (if verified then .ok else .fails "") :: .ok :: answers)
      = exec (alone cfg)
        (⟨w, guards⟩, ⟨serviceId, domainId, .updateStatus d verified⟩) answers := by
  cases verified <;>
    simp [exec, alone, advance, proceed, fail, goTo, hfree, Finset.erase_insert hfree]

/-- Read again, the row is there. -/
theorem alone_reread (hrow : w.store.getServiceDomain d.id = some d') :
    exec (alone cfg) (⟨w, guards⟩, ⟨serviceId, domainId, .reread d⟩) [.ok]
      = some (⟨w, guards⟩, ⟨serviceId, domainId, .done (.ok d')⟩) := by
  simp [exec, alone, advance, proceed, hrow, finish, goTo]

end

/-- **A request that nobody interrupts does what the handler does**: some answers of the
calls lead it to the handler's world and answer, and leave the set as it was. -/
theorem verifyServiceDomain_alone (cfg : ApiConfig) (w : World) (guards : Finset Uuid)
    (serviceId domainId : Uuid) (verified : Bool) (hfree : domainId ∉ guards) :
    ∃ answers result, exec (alone cfg)
        (⟨w, guards⟩, ⟨serviceId, domainId, .getService⟩) answers
        = some (⟨(w.verifyServiceDomain cfg serviceId domainId verified).1, guards⟩,
            ⟨serviceId, domainId, .done result⟩) ∧
      result.map (fun _ => ()) = (w.verifyServiceDomain cfg serviceId domainId verified).2 := by
  unfold World.verifyServiceDomain Store.domainOf
  cases hsvc : w.store.getService serviceId with
  | none =>
    refine ⟨[.ok], .error (.notFound "service not found"), ?_, rfl⟩
    simp [exec, alone, advance, proceed, hsvc, finish, goTo]
  | some =>
  cases hrow : w.store.getServiceDomain domainId with
  | none =>
    refine ⟨[.ok, .ok], .error (.notFound "domain not found"), ?_, rfl⟩
    simp [exec, alone, advance, proceed, hsvc, hrow, finish, goTo]
  | some d =>
  have hid : d.id = domainId := by simpa using List.find?_some hrow
  have hread : ∀ answers, exec (alone cfg)
      (⟨w, guards⟩, ⟨serviceId, domainId, .getService⟩) (.ok :: .ok :: answers)
      = exec (alone cfg)
        (⟨w, guards⟩, afterRead cfg ⟨serviceId, domainId, .getServiceDomain⟩ d)
        answers := by
    intro answers
    simp [exec, alone, advance, proceed, hsvc, goTo, hrow]
  simp only
  -- what is answered without the verifier
  by_cases hservice : d.serviceId = serviceId
  swap
  · refine ⟨[.ok, .ok], .error (.notFound "domain not found"), ?_, ?_⟩
    · rw [hread]
      simp [afterRead, hservice, exec, finish, goTo]
    · simp [hservice]
      rfl
  rw [if_neg (not_not.mpr hservice)]
  by_cases hreserved : cfg.controlDomain = some d.hostname.name
  · refine ⟨[.ok, .ok], .error (.conflict "hostname is reserved for the control plane"), ?_, ?_⟩
    · rw [hread]
      simp [afterRead, hservice, hreserved, exec, finish, goTo]
    · simp [hreserved]
      rfl
  by_cases hstatus : d.status = .verified
  · refine ⟨[.ok, .ok], .ok d, ?_, ?_⟩
    · rw [hread]
      simp [afterRead, hservice, hreserved, hstatus, exec, finish, goTo]
    · simp [hreserved, hstatus]
      rfl
  simp only [if_neg hreserved, if_neg hstatus]
  -- between entering the set and leaving it the verifier is asked
  have henter : afterRead cfg ⟨serviceId, domainId, .getServiceDomain⟩ d
      = ⟨serviceId, domainId, .insertGuard d⟩ := by
    simp [afterRead, hservice, hreserved, hstatus, goTo]
  rw [henter] at hread
  rw [← hid] at hrow hfree
  have hverify := alone_verified cfg w guards serviceId domainId hfree verified
  have hwritten := fun status => getServiceDomain_updateStatus hrow status
  cases verified with
  | false =>
    refine ⟨.ok :: .ok :: .ok :: .fails "" :: .ok :: .ok :: [.ok], .ok { d with status := .failed },
      ?_, rfl⟩
    rw [hread]
    refine (hverify _).trans ?_
    exact alone_reread cfg _ guards serviceId domainId (hwritten .failed)
  | true =>
    simp only [if_true]
    have hstore := applyRoutes_store
      (w.onStore fun db => db.updateServiceDomainStatus d.id .verified)
    cases hroutes : (w.onStore fun db => db.updateServiceDomainStatus d.id .verified).applyRoutes
      with
    | mk w' outcome =>
    rw [hroutes] at hstore
    cases outcome with
    | error e =>
      refine ⟨.ok :: .ok :: .ok :: .ok :: .ok :: .ok :: [.ok], .error (.deploy e), ?_, rfl⟩
      rw [hread]
      refine (hverify _).trans ?_
      simp [exec, alone, advance, proceed, hroutes, finish, goTo, World.answered]
    | ok =>
      refine ⟨.ok :: .ok :: .ok :: .ok :: .ok :: .ok :: .ok :: [.ok],
        .ok { d with status := .verified }, ?_, rfl⟩
      rw [hread]
      refine (hverify _).trans ?_
      have hagain : w'.store.getServiceDomain d.id = some { d with status := .verified } := by
        rw [hstore]
        exact hwritten .verified
      refine Eq.trans ?_ (alone_reread cfg w' guards serviceId domainId hagain)
      simp [exec, alone, advance, proceed, hroutes, goTo]

/-! ## §5. One verifier call for a row at a time. -/

/-- What the request has in the set is there. -/
def Entered (s : VerifyShared) (r : VerifyRequest) : Prop :=
  ∀ id, r.pc.held = some id → id ∈ s.verifyingDomains

/-- No two requests have the same row in the set. -/
def HeldApart (p q : VerifyRequest) : Prop :=
  ∀ id, p.pc.held = some id → q.pc.held ≠ some id

/-- `verifying_domains` as a table of who is at the verifier. -/
abbrev Excludes (σ : System VerifyShared VerifyRequest) : Prop :=
  σ.Holds (fun _ => True) Entered HeldApart

theorem excludes_keeps (cfg : ApiConfig) :
    (verifyProgram cfg).Keeps (fun _ _ => True) (fun _ => True) Entered HeldApart where
  symm p q h id hq hp := h id hp hq
  start_each s ids _ id h := by cases h
  start_apart ids q id h := by cases h
  outer σ e s' _ _ h := by
    refine ⟨trivial, fun q hq id hid => ?_⟩
    have hguards : s'.verifyingDomains = σ.shared.verifyingDomains := by
      cases e with
      | createDomain =>
        obtain ⟨db, -, rfl⟩ := Option.map_eq_some_iff.mp h
        rfl
      | deleteDomain =>
        cases h
        rfl
      | other =>
        change (if _ then _ else _) = _ at h
        split at h <;> cases h
        rfl
    exact hguards ▸ hq id hid
  move σ i p a s' p' hσ _ hp h := by
    have hmove : VerifyMove σ.shared p s' p' := advance_move h
    -- a request that enters nothing leaves the others what they have
    have hsame : ∀ {s1}, s1.verifyingDomains = σ.shared.verifyingDomains →
        (p'.pc.held = none ∨ p'.pc.held = p.pc.held) →
        Entered s1 p' ∧ ∀ j q, j ≠ i → σ.procs[j]? = some q → Entered s1 q ∧ HeldApart p' q := by
      intro s1 hguards hheld
      have hown : ∀ id, p'.pc.held = some id → p.pc.held = some id := by
        rcases hheld with hheld | hheld <;> simp [hheld]
      refine ⟨fun id hid => ?_, fun j q hj hq => ⟨fun id hid => ?_, fun id hid => ?_⟩⟩
      · exact hguards ▸ hσ.each i p hp id (hown id hid)
      · exact hguards ▸ hσ.each j q hq id hid
      · exact hσ.apart i j p q hj.symm hp hq id (hown id hid)
    refine ⟨trivial, ?_⟩
    cases hmove with
    | insert d hpc hfree hpc' =>
      have hheld : ∀ id, p'.pc.held = some id → id = d.id := by
        simp [hpc', VerifyPc.held, eq_comm]
      refine ⟨fun id hid => ?_, fun j q hj hq => ⟨fun id hid => ?_, fun id hid hq' => ?_⟩⟩
      · rw [hheld id hid]
        exact Finset.mem_insert_self _ _
      · exact Finset.mem_insert_of_mem (hσ.each j q hq id hid)
      · rw [hheld id hid] at hq'
        exact hfree (hσ.each j q hq _ hq')
    | answer d verified hpc hpc' => exact hsame rfl (.inr (by rw [hpc, hpc']; rfl))
    | remove d verified hpc hpc' =>
      have hnone : ∀ id, p'.pc.held ≠ some id := by simp [hpc', VerifyPc.held]
      refine ⟨fun id hid => absurd hid (hnone id), fun j q hj hq => ⟨fun id hid => ?_,
        fun id hid => absurd hid (hnone id)⟩⟩
      -- the id that is taken out is no other request's
      have hne : id ≠ d.id := by
        rintro rfl
        exact hσ.apart i j p q hj.symm hp hq d.id (hpc ▸ rfl) hid
      exact Finset.mem_erase_of_ne_of_mem hne (hσ.each j q hq id hid)
    | write d verified status hpc hpc' =>
      exact hsame rfl (.inl (VerifyPc.held_of_unsettled_none hpc'))
    | quiet hguards hstore hpc' =>
      exact hsame hguards (.inl (VerifyPc.held_of_unsettled_none hpc'))

variable {i : Nat}

/-- **One verifier call for a row at a time**, in every interleaving. -/
theorem verifier_exclusive (h : exec (verifyProgram cfg).step ⟨s, []⟩ events = some σ) {j : Nat}
    {q : VerifyRequest} (hp : σ.procs[i]? = some p) (hq : σ.procs[j]? = some q)
    (hpd : p.pc = .verify d) (hqd : q.pc = .verify d') (hrow : d.id = d'.id) : i = j := by
  have hσ : Excludes σ := exec_invariant_all _
    (fun _ _ _ hσ hs => (excludes_keeps cfg).step hσ trivial hs) (.start trivial) h
  by_contra hij
  refine hσ.apart i j p q hij hp hq d.id ?_ ?_
  · rw [hpd]
    rfl
  · rw [hqd, hrow]
    rfl

/-! ## §6. A verified row. -/

/-- The request enters the set, which is free, for a row that is not verified by now and
that no request has an answer to write for. -/
def takesFresh (σ : System VerifyShared VerifyRequest) :
    Event (Uuid × Uuid) CallAnswer DomainChange → Bool
  | .move i .ok =>
      match σ.procs[i]? with
      | some ⟨_, _, .insertGuard d⟩ =>
          decide (d.id ∈ σ.shared.verifyingDomains) ||
            decide (σ.shared.statusOf d.id ≠ some .verified) &&
              σ.procs.all fun q => match q.pc with
                | .updateStatus d' _ => d'.id ≠ d.id
                | _ => true
      | _ => true
  | _ => true

/-- What an answer is out for is not verified. -/
def Unverified (s : VerifyShared) (r : VerifyRequest) : Prop :=
  ∀ id, r.pc.unsettled = some id → s.statusOf id ≠ some .verified

/-- No two requests have an answer to write for the same row. -/
def UnsettledApart (p q : VerifyRequest) : Prop :=
  ∀ id, p.pc.unsettled = some id → q.pc.unsettled ≠ some id

/-- All of these rows are verified. -/
def AllVerified (ids : List Uuid) (s : VerifyShared) : Prop :=
  ∀ id ∈ ids, s.statusOf id = some .verified

/-- The event deletes none of these rows. -/
def Spares (ids : List Uuid) (event : Event (Uuid × Uuid) CallAnswer DomainChange) : Prop :=
  ∀ id ∈ ids, event ≠ .outer (.deleteDomain id)

/-- Entering the set as `takesFresh` asks for, the request finds the row unverified and
no other request unsettled about it. -/
theorem takesFresh_insert (hσ : Excludes σ) (hfresh : takesFresh σ (.move i .ok) = true)
    (hp : σ.procs[i]? = some p) (hpc : p.pc = .insertGuard d)
    (hfree : d.id ∉ σ.shared.verifyingDomains) : σ.shared.statusOf d.id ≠ some .verified ∧
      ∀ (j : Nat) (q : VerifyRequest), σ.procs[j]? = some q → q.pc.unsettled ≠ some d.id := by
  obtain ⟨serviceId, domainId, pc⟩ := p
  subst hpc
  simp only [takesFresh, hp, hfree, decide_false, Bool.false_or,
    Bool.and_eq_true, decide_eq_true_eq, List.all_eq_true] at hfresh
  refine ⟨hfresh.1, fun j q hq hunsettled => ?_⟩
  cases hqpc : q.pc with
  | updateStatus =>
    have hne := hfresh.2 q (List.mem_of_getElem? hq)
    rw [hqpc] at hne hunsettled
    simp [Option.some.inj hunsettled] at hne
  | verify d' | removeGuard d' verified =>
    -- at the verifier the id is in the set, which is free
    refine hfree (hσ.each j q hq d.id ?_)
    rwa [hqpc] at hunsettled ⊢
  | _ => simp [hqpc, VerifyPc.unsettled] at hunsettled

theorem insert_ok (h : r.advance cfg s answer = some (s', r')) (hpc : r.pc = .insertGuard d) :
    answer = .ok := by
  cases answer with
  | ok => rfl
  | fails =>
    simp only [advance, fail, hpc] at h
    cases h
  | dropped =>
    simp only [advance, drop, hpc] at h
    cases h

/-- What happens outside verifies no row, and takes away none that is not deleted. -/
theorem outer_status {e : DomainChange} (h : e.apply s = some s') (id : Uuid) :
    (s'.statusOf id = some .verified → s.statusOf id = some .verified) ∧
      (e ≠ .deleteDomain id → s.statusOf id = some .verified →
        s'.statusOf id = some .verified) := by
  cases e with
  | createDomain =>
    obtain ⟨db, hput, rfl⟩ := Option.map_eq_some_iff.mp h
    have hstatus := Store.statusOf_putServiceDomain hput id
    rcases hstatus with hstatus | ⟨hnone, hstatus⟩
    · exact ⟨hstatus.symm.trans, fun _ => hstatus.trans⟩
    · exact ⟨fun h => (by cases hstatus.symm.trans h), fun _ h => (by cases hnone.symm.trans h)⟩
  | deleteDomain x =>
    cases h
    show ((s.world.store.deleteServiceDomain x).statusOf id = _ → _) ∧
      (_ → _ → (s.world.store.deleteServiceDomain x).statusOf id = _)
    rw [Store.statusOf_deleteServiceDomain]
    split
    next hid => exact ⟨nofun, fun hne => absurd (hid ▸ rfl) hne⟩
    next => exact ⟨fun h => h, fun _ h => h⟩
  | other w =>
    change (if _ then _ else _) = _ at h
    split at h <;> cases h
    next hdomains =>
      have hsame : w.store.statusOf id = s.world.store.statusOf id := by
        unfold Store.statusOf Store.getServiceDomain
        rw [hdomains]
      exact ⟨hsame.symm.trans, fun _ => hsame.trans⟩

theorem verified_keeps (cfg : ApiConfig) (ids : List Uuid) : (verifyProgram cfg).Keeps
      (fun σ event => (takesFresh σ event = true ∧ Spares ids event) ∧ Excludes σ)
      (AllVerified ids) Unverified UnsettledApart where
  symm p q h id hq hp := h id hp hq
  start_each s ids _ id h := by cases h
  start_apart ids q id h := by cases h
  outer σ e s' hσ hguard h := by
    refine ⟨fun id hid => ?_, fun q hq id hid hverified => ?_⟩
    · exact (outer_status h id).2 (fun heq => hguard.1.2 id hid (heq ▸ rfl)) (hσ.shared id hid)
    · exact hq id hid ((outer_status h id).1 hverified)
  move σ i p a s' p' hσ hguard hp h := by
    have hmove : VerifyMove σ.shared p s' p' := advance_move h
    -- a request that writes nothing and takes up no row
    have hsame : ∀ {s1}, (∀ id, s1.statusOf id = σ.shared.statusOf id) →
        (p'.pc.unsettled = none ∨ p'.pc.unsettled = p.pc.unsettled) →
        AllVerified ids s1 ∧ Unverified s1 p' ∧
          ∀ j q, j ≠ i → σ.procs[j]? = some q → Unverified s1 q ∧ UnsettledApart p' q := by
      intro s1 hstatus hunsettled
      have hown : ∀ id, p'.pc.unsettled = some id → p.pc.unsettled = some id := by
        rcases hunsettled with hunsettled | hunsettled <;> simp [hunsettled]
      refine ⟨fun id hid => ?_, fun id hid => ?_, fun j q hj hq => ⟨fun id hid => ?_,
        fun id hid => ?_⟩⟩
      · exact (hstatus id).trans (hσ.shared id hid)
      · exact hstatus id ▸ hσ.each i p hp id (hown id hid)
      · exact hstatus id ▸ hσ.each j q hq id hid
      · exact hσ.apart i j p q hj.symm hp hq id (hown id hid)
    cases hmove with
    | insert d hpc hfree hpc' =>
      rw [insert_ok h hpc] at hguard
      obtain ⟨hstatus, hothers⟩ := takesFresh_insert hguard.2 hguard.1.1 hp hpc hfree
      have hrow : ∀ id, p'.pc.unsettled = some id → id = d.id := by
        simp [hpc', VerifyPc.unsettled, eq_comm]
      exact ⟨hσ.shared, fun id hid => hrow id hid ▸ hstatus,
        fun j q hj hq => ⟨hσ.each j q hq, fun id hid => hrow id hid ▸ hothers j q hq⟩⟩
    | answer d verified hpc hpc' => exact hsame (fun _ => rfl) (.inr (by rw [hpc, hpc']; rfl))
    | remove d verified hpc hpc' => exact hsame (fun _ => rfl) (.inr (by rw [hpc, hpc']; rfl))
    | write d verified status hpc hpc' =>
      have hrow : p.pc.unsettled = some d.id := hpc ▸ rfl
      have hother : ∀ id, id ≠ d.id →
          (σ.shared.world.store.updateServiceDomainStatus d.id status).statusOf id
            = σ.shared.statusOf id := by
        intro id hid
        rw [Store.statusOf_updateServiceDomainStatus, if_neg hid]
      refine ⟨fun id hid => ?_, fun id hid => ?_, fun j q hj hq => ⟨fun id hid => ?_,
        fun id hid => ?_⟩⟩
      · -- the row that is written was not verified
        have hne : id ≠ d.id := fun heq =>
          hσ.each i p hp d.id hrow (heq ▸ hσ.shared id hid)
        exact (hother id hne).trans (hσ.shared id hid)
      · simp [hpc'] at hid
      · have hne : id ≠ d.id := fun heq =>
          hσ.apart i j p q hj.symm hp hq d.id hrow (heq ▸ hid)
        exact fun h => hσ.each j q hq id hid ((hother id hne).symm.trans h)
      · simp [hpc'] at hid
    | quiet hguards hstore hpc' =>
      refine hsame (fun id => ?_) (.inl hpc')
      show Store.statusOf _ id = _
      rw [hstore]

/-- The rule for a run in which none of these rows is deleted. -/
theorem verified_run {ids : List Uuid} {τ : System VerifyShared VerifyRequest}
    (hexcludes : Excludes σ) (hσ : σ.Holds (AllVerified ids) Unverified UnsettledApart)
    (hfresh : Guarded (verifyProgram cfg).step (fun σ event => takesFresh σ event = true) σ events)
    (hspares : ∀ event ∈ events, Spares ids event)
    (h : exec (verifyProgram cfg).step σ events = some τ) :
    Excludes τ ∧ τ.Holds (AllVerified ids) Unverified UnsettledApart := by
  have hstep : ∀ σ event σ', Excludes σ → True → (verifyProgram cfg).step σ event = some σ' →
      Excludes σ' := fun _ _ _ hσ hg hs => (excludes_keeps cfg).step hσ hg hs
  refine ⟨exec_invariant_all _ (fun σ event σ' hσ => hstep σ event σ' hσ trivial) hexcludes h, ?_⟩
  refine (verified_keeps cfg ids).run hσ ?_ h
  exact guarded_and (guarded_and hfresh (guarded_of_forall_mem hspares σ))
    (guarded_of_invariant (fun σ event σ' hσ _ => hstep σ event σ' hσ trivial) hexcludes hfresh)

/-- **A verified row stays verified until it is deleted**, and one verifier call for it is
in progress at a time, in every interleaving in which each request that enters the set
finds the row not verified by then and no other request about to write its status. -/
theorem verified_until_deleted {cfg : ApiConfig} {s : VerifyShared}
    {before after : List (Event (Uuid × Uuid) CallAnswer DomainChange)}
    {σ τ : System VerifyShared VerifyRequest}
    (hfresh : Guarded (verifyProgram cfg).step (fun σ event => takesFresh σ event = true) ⟨s, []⟩
      (before ++ after)) (hσ : exec (verifyProgram cfg).step ⟨s, []⟩ before = some σ)
    (hτ : exec (verifyProgram cfg).step σ after = some τ) (id : Uuid) :
    (σ.shared.statusOf id = some .verified →
      (∀ event ∈ after, event ≠ .outer (.deleteDomain id)) →
      τ.shared.statusOf id = some .verified) ∧
    ∀ (i j : Nat) (p q : VerifyRequest) (d d' : ServiceDomain), σ.procs[i]? = some p →
      σ.procs[j]? = some q → p.pc = .verify d → q.pc = .verify d' → d.id = d'.id → i = j := by
  refine ⟨fun hverified hspares => ?_, fun i j p q d d' hp hq hpd hqd hrow =>
    verifier_exclusive hσ hp hq hpd hqd hrow⟩
  obtain ⟨hbefore, hafter⟩ := guarded_append hfresh hσ
  have hnone : AllVerified [] s := nofun
  obtain ⟨hexcludes, hheld⟩ := verified_run (.start trivial) (.start hnone) hbefore
    (fun _ _ id hid => by cases hid) hσ
  have hid : σ.Holds (AllVerified [id]) Unverified UnsettledApart :=
    ⟨by simpa [AllVerified] using hverified, hheld.each, hheld.apart⟩
  have hspare : ∀ event ∈ after, Spares [id] event := fun event hevent x hx =>
    List.mem_singleton.mp hx ▸ hspares event hevent
  exact (verified_run hexcludes hid hafter hspare hτ).2.shared id List.mem_cons_self

/-! ## §7. Two requests for one row. -/

/-- A service with one hostname. -/
def shop : ServiceConfig := { ServiceConfig.plain 1 "shop" with domains := ["shop.example.org"] }

/-- The hostname of the shop. -/
def shopHost : Hostname := ⟨"shop.example.org", by decide +kernel⟩

/-- The shop is stored. -/
def shopWorld : World := idleWorld.onStore (·.putService shop)

/-- The row is pending, the verifier finds its record, and the handler marks it verified. -/
theorem verifyServiceDomain_alone_shop :
    ∃ w, DomainChange.apply ⟨shopWorld, ∅⟩ (.createDomain 1 shopHost) = some ⟨w, ∅⟩ ∧
      w.store.statusOf 3 = some .pending ∧
      (w.verifyServiceDomain ⟨none⟩ 1 3 true).1.store.statusOf 3 = some .verified ∧
      ∃ answers result, exec (alone ⟨none⟩) (⟨w, ∅⟩, ⟨1, 3, .getService⟩) answers
          = some (⟨(w.verifyServiceDomain ⟨none⟩ 1 3 true).1, ∅⟩, ⟨1, 3, .done result⟩) ∧
        result.map (fun _ => ()) = (w.verifyServiceDomain ⟨none⟩ 1 3 true).2 := by
  obtain ⟨⟨w, guards⟩, hput, hguards, hpending, hverified⟩ :
      ∃ s ∈ DomainChange.apply ⟨shopWorld, ∅⟩ (.createDomain 1 shopHost),
        s.verifyingDomains = ∅ ∧ s.statusOf 3 = some .pending ∧
        (s.world.verifyServiceDomain ⟨none⟩ 1 3 true).1.store.statusOf 3 = some .verified := by
    decide +kernel
  subst hguards
  exact ⟨w, hput, hpending, hverified, verifyServiceDomain_alone _ w ∅ 1 3 true (by simp)⟩

/-- The row gets the id 3; two requests read it, both while it is pending. -/
def bothRead : List (Event (Uuid × Uuid) CallAnswer DomainChange) :=
  [.outer (.createDomain 1 shopHost), .spawn (1, 3), .spawn (1, 3),
    .move 0 .ok, .move 0 .ok, .move 1 .ok, .move 1 .ok]

/-- From the set to the written status. -/
def settle (i : Nat) (verifier : CallAnswer) : List (Event (Uuid × Uuid) CallAnswer DomainChange) :=
  [.move i .ok, .move i verifier, .move i .ok, .move i .ok]

/-- **A late failure undoes a success.**  The first request verifies the row and writes
it; the second, which read it before, finds the set free again, and its verifier fails. -/
theorem late_failure_overwrites : ∃ σ τ,
      exec (verifyProgram ⟨none⟩).step ⟨⟨shopWorld, ∅⟩, []⟩ (bothRead ++ settle 0 .ok) = some σ ∧
      exec (verifyProgram ⟨none⟩).step σ (settle 1 (.fails "no TXT record")) = some τ ∧
      σ.shared.statusOf 3 = some .verified ∧ τ.shared.statusOf 3 = some .failed ∧
      ∀ event ∈ settle 1 (.fails "no TXT record"), event ≠ .outer (.deleteDomain 3) := by
  obtain ⟨σ, hσ, hverified, τ, hτ, hfailed⟩ :
      ∃ σ ∈ exec (verifyProgram ⟨none⟩).step ⟨⟨shopWorld, ∅⟩, []⟩ (bothRead ++ settle 0 .ok),
        σ.shared.statusOf 3 = some .verified ∧
        ∃ τ ∈ exec (verifyProgram ⟨none⟩).step σ (settle 1 (.fails "no TXT record")),
          τ.shared.statusOf 3 = some .failed := by
    decide +kernel
  refine ⟨σ, τ, hσ, hτ, hverified, hfailed, ?_⟩
  rintro event hevent rfl
  simp [settle] at hevent

/-- Refused while the first one is at the verifier, the second request does no harm. -/
theorem verified_until_deleted_shop : ∃ σ τ,
      exec (verifyProgram ⟨none⟩).step ⟨⟨shopWorld, ∅⟩, []⟩
        (bothRead ++ [.move 0 .ok, .move 1 .ok, .move 0 .ok, .move 0 .ok, .move 0 .ok]) = some σ ∧
      exec (verifyProgram ⟨none⟩).step σ [.move 0 .ok, .move 0 .ok] = some τ ∧
      τ.shared.statusOf 3 = some .verified := by
  obtain ⟨σ, hσ, hverified, τ, hτ, -⟩ : ∃ σ ∈ exec (verifyProgram ⟨none⟩).step
      ⟨⟨shopWorld, ∅⟩, []⟩
      (bothRead ++ [.move 0 .ok, .move 1 .ok, .move 0 .ok, .move 0 .ok, .move 0 .ok]),
      σ.shared.statusOf 3 = some .verified ∧
      ∃ τ ∈ exec (verifyProgram ⟨none⟩).step σ [.move 0 .ok, .move 0 .ok], True := by
    decide +kernel
  refine ⟨σ, τ, hσ, hτ, (verified_until_deleted (guarded_of_checked (fun _ _ h => h)
    (by decide +kernel)) hσ hτ 3).1 hverified ?_⟩
  rintro event hevent rfl
  simp at hevent

end Denia.Deploy
