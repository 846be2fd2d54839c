/-
  Denia.Tenancy.PutService — what a REFUSED `POST /v1/services` leaves behind
  (`put_service`, `sync_domain_rows`, `src/api/services.rs`).

  The service row is stored first; then the hostnames of the request get their domain rows,
  one by one.  A hostname is refused if it is reserved, if some row already has it and the row
  is not of this service, or if the request names it twice and it is new.  Then the request
  fails, with the service row and the domain rows of the hostnames before it in place.

  Main results: `syncs_iff` and `fails_syncDomainRows`, how far the loop gets;
  `put_service_all_or_nothing_iff`; `refused_service_is_stored`.
-/
import Denia.Tenancy.Identity
import Mathlib.Data.List.Induction

namespace Denia.Tenancy

open Lib Verification

/-! ## §1. Rows. -/

/-- The same services and the same domains are stored. -/
def SameRows (db db' : Database) : Prop :=
  (∀ id, db'.services.lookup id = db.services.lookup id) ∧
    ∀ id, db'.serviceDomains.lookup id = db.serviceDomains.lookup id

/-- Some domain row has the hostname. -/
def Database.HasHostname (db : Database) (hostname : Hostname) : Prop :=
  ∃ id d, db.serviceDomains.lookup id = some d ∧ d.hostname = hostname

variable {hostname : Hostname} {db : Database}

theorem any_hostname : (db.serviceDomains.entries.any fun e => e.2.hostname = hostname) = true ↔
      db.HasHostname hostname := by
  rw [List.any_eq_true]
  constructor
  · rintro ⟨⟨id, d⟩, hmem, hd⟩
    exact ⟨id, d, AList.mem_lookup_iff.mpr hmem, of_decide_eq_true hd⟩
  · rintro ⟨id, d, hd, hhost⟩
    exact ⟨⟨id, d⟩, AList.mem_lookup_iff.mp hd, decide_eq_true hhost⟩

/-- `db` with a pending row for the hostname. -/
def Database.withDomain (db : Database) (serviceId : Uuid) (hostname : Hostname) : Database :=
  { db with
    serviceDomains := db.serviceDomains.insert db.nextId ⟨serviceId, hostname, .pending⟩
    nextId := db.nextId + 1 }

variable {serviceId : Uuid}

theorem putServiceDomain_eq_none :
    db.putServiceDomain serviceId hostname = none ↔ db.HasHostname hostname := by
  unfold Database.putServiceDomain
  rw [← any_hostname]
  split
  next h => exact ⟨fun _ => h, fun _ => rfl⟩
  next h => exact ⟨nofun, fun h' => absurd h' h⟩

variable {db' : Database}

theorem putServiceDomain_eq_some : db.putServiceDomain serviceId hostname = some db' ↔
      ¬ db.HasHostname hostname ∧ db' = db.withDomain serviceId hostname := by
  unfold Database.putServiceDomain
  rw [← any_hostname]
  split
  next h => exact ⟨nofun, fun h' => absurd h h'.1⟩
  next h =>
    constructor
    · intro hput
      injection hput with hput
      exact ⟨h, hput.symm⟩
    · rintro ⟨-, rfl⟩
      rfl

variable {h : Hostname}

theorem hasHostname_withDomain (hdb : Numbered db.nextId db.serviceDomains) :
    (db.withDomain serviceId hostname).HasHostname h ↔ db.HasHostname h ∨ h = hostname := by
  constructor
  · rintro ⟨id, d, hd, rfl⟩
    rcases lookup_insert_cases hd with ⟨rfl, rfl⟩ | ⟨-, hd⟩
    · exact .inr rfl
    · exact .inl ⟨id, d, hd, rfl⟩
  · rintro (⟨id, d, hd, rfl⟩ | rfl)
    · exact ⟨id, d, (AList.lookup_insert_ne (Nat.ne_of_lt (hdb.lt hd))).trans hd, rfl⟩
    · exact ⟨db.nextId, ⟨serviceId, h, .pending⟩, AList.lookup_insert _, rfl⟩

/-! ## §2. One hostname. -/

/-- The hostname is refused at its turn, `before` being the ones before it. -/
def Refused (cfg : ApiConfig) (db : Database) (serviceId : Uuid) (before : List String)
    (raw : String) : Prop :=
  ∀ h, validateHostname raw = .ok h → h.name ∉ db.serviceHostnames serviceId ∧
    (cfg.controlDomain = some h.name ∨ db.HasHostname h ∨
      ∃ r ∈ before, validateHostname r = .ok h)

/-- The hostname is one the service has a row for. -/
def Known (db : Database) (serviceId : Uuid) (raw : String) : Prop :=
  ∃ h, validateHostname raw = .ok h ∧ h.name ∈ db.serviceHostnames serviceId

/-- The tables when the hostnames `before` have had their turn. -/
structure Synced (db : Database) (serviceId : Uuid) (before : List String) (db' : Database) :
    Prop where
  hostnames : ∀ h, db'.HasHostname h ↔ db.HasHostname h ∨
    h.name ∉ db.serviceHostnames serviceId ∧ ∃ r ∈ before, validateHostname r = .ok h
  services : db'.services = db.services
  numbered : Numbered db'.nextId db'.serviceDomains
  known : (∀ r ∈ before, Known db serviceId r) → db' = db

variable {cfg : ApiConfig} {service : ServiceConfig}

section
variable {db1 : Database} {before : List String} {raw : String}

/-- A row of `sync_domain_rows`, with the hostnames the service had at the start. -/
abbrev syncRow (cfg : ApiConfig) (db : Database) (serviceId : Uuid) (raw : String) : Api PUnit :=
  syncDomainRow cfg serviceId (db.serviceHostnames serviceId) raw

/-- The next hostname has had its turn: a new one has a row now. -/
theorem Synced.concat (hsynced : Synced db serviceId before db1) {db2 : Database}
    (hvalid : validateHostname raw = .ok h) (hhost : ∀ h', db2.HasHostname h' ↔
      db1.HasHostname h' ∨ h'.name ∉ db.serviceHostnames serviceId ∧ h' = h)
    (hservices : db2.services = db1.services) (hnumbered : Numbered db2.nextId db2.serviceDomains)
    (hknown : h.name ∈ db.serviceHostnames serviceId → db2 = db1) :
    Synced db serviceId (before ++ [raw]) db2 := by
  refine ⟨fun h' => ?_, hservices.trans hsynced.services, hnumbered, fun hall => ?_⟩
  · have hmem : (∃ r ∈ before ++ [raw], validateHostname r = .ok h') ↔
        (∃ r ∈ before, validateHostname r = .ok h') ∨ h' = h := by
      simp only [List.mem_append, List.mem_singleton, or_and_right, exists_or, exists_eq_left,
        hvalid, Except.ok.injEq]
      rw [eq_comm (a := h)]
    rw [hhost, hsynced.hostnames, hmem, and_or_left, or_assoc]
  · obtain ⟨h', hvalid', hknown'⟩ := hall raw (List.mem_append_right _ List.mem_cons_self)
    cases hvalid.symm.trans hvalid'
    rw [hknown hknown', hsynced.known fun r hr => hall r (List.mem_append_left _ hr)]

/-- **A hostname at its turn**: refused, and then nothing is written, or not. -/
theorem syncRow_cases (cfg : ApiConfig) (hsynced : Synced db serviceId before db1) (raw : String) :
    (Refused cfg db serviceId before raw ∧ Fails (syncRow cfg db serviceId raw) db1 db1) ∨
      (¬ Refused cfg db serviceId before raw ∧ ∃ db2,
        Returns (syncRow cfg db serviceId raw) db1 ⟨⟩ db2 ∧
          Synced db serviceId (before ++ [raw]) db2) := by
  unfold syncRow syncDomainRow
  cases hvalid : validateHostname raw with
  | error =>
    refine .inl ⟨fun h hh => (by rw [hvalid] at hh; cases hh), ?_⟩
    exact fails_bind.mpr (.inl (fails_accept.mpr ⟨⟨_, rfl⟩, rfl⟩))
  | ok h =>
    have haccept : ∀ (f : Hostname → Api PUnit),
        accept ((Except.ok h : Except HostnameError Hostname).mapError fun e =>
          ApiError.badRequest (Deploy.hostnameErrorText e)) >>= f = f h := fun _ => rfl
    rw [haccept]
    by_cases hknown : h.name ∈ db.serviceHostnames serviceId
    · -- the service has a row for it
      rw [if_pos hknown]
      refine .inr ⟨fun href => (href h hvalid).1 hknown, db1, returns_pure.mpr ⟨rfl, rfl⟩, ?_⟩
      refine hsynced.concat hvalid (fun h' => ⟨.inl, ?_⟩) rfl hsynced.numbered fun _ => rfl
      rintro (hold | ⟨hnew, rfl⟩)
      · exact hold
      · exact absurd hknown hnew
    · rw [if_neg hknown]
      by_cases hreserved : cfg.controlDomain = some h.name
      · refine .inl ⟨fun h' hh => ?_, ?_⟩
        · cases hvalid.symm.trans hh
          exact ⟨hknown, .inl hreserved⟩
        · exact fails_bind.mpr (.inl (fails_ensure.mpr ⟨fun hne => hne hreserved, rfl⟩))
      · rw [ensure_bind_of hreserved]
        by_cases htaken : db1.HasHostname h
        · refine .inl ⟨fun h' hh => ?_, ?_⟩
          · cases hvalid.symm.trans hh
            rcases (hsynced.hostnames h).mp htaken with hold | ⟨-, hr⟩
            · exact ⟨hknown, .inr (.inl hold)⟩
            · exact ⟨hknown, .inr (.inr hr)⟩
          · rw [fails_get_bind, fails_bind]
            exact .inl (fails_found.mpr ⟨putServiceDomain_eq_none.mpr htaken, rfl⟩)
        · -- a new row
          refine .inr ⟨fun href => ?_, db1.withDomain serviceId h, ?_, ?_⟩
          · rcases (href h hvalid).2 with hcontrol | hold | hr
            · exact hreserved hcontrol
            · exact htaken ((hsynced.hostnames h).mpr (.inl hold))
            · exact htaken ((hsynced.hostnames h).mpr (.inr ⟨hknown, hr⟩))
          · rw [returns_get_bind, returns_found_bind]
            refine ⟨_, putServiceDomain_eq_some.mpr ⟨htaken, rfl⟩, ?_⟩
            exact returns_modify.mpr rfl
          · refine hsynced.concat hvalid (fun h' => ?_) rfl (hsynced.numbered.insert _) fun hmem =>
              absurd hmem hknown
            rw [hasHostname_withDomain hsynced.numbered]
            refine or_congr_right ⟨?_, fun hh => hh.2⟩
            rintro rfl
            exact ⟨hknown, rfl⟩

/-! ## §3. All of them. -/

/-- None of the hostnames is refused. -/
def NoneRefused (cfg : ApiConfig) (db : Database) (serviceId : Uuid) (domains : List String) :
    Prop :=
  ∀ before raw after, domains = before ++ raw :: after → ¬ Refused cfg db serviceId before raw

theorem noneRefused_concat {domains : List String} :
    NoneRefused cfg db serviceId (domains ++ [raw]) ↔
      NoneRefused cfg db serviceId domains ∧ ¬ Refused cfg db serviceId domains raw := by
  constructor
  · intro h
    refine ⟨fun before r after hsplit => ?_, h domains raw [] rfl⟩
    refine h before r (after ++ [raw]) ?_
    rw [hsplit, List.append_assoc, List.cons_append]
  · rintro ⟨hdomains, hraw⟩ before r after hsplit
    rcases List.eq_nil_or_concat after with rfl | ⟨after', x, rfl⟩
    · obtain ⟨rfl, hr⟩ := List.append_inj' hsplit rfl
      cases hr
      exact hraw
    · have hsplit' : domains ++ [raw] = (before ++ r :: after') ++ [x] := by
        rw [hsplit, List.append_assoc, List.cons_append, List.concat_eq_append]
      obtain ⟨rfl, -⟩ := List.append_inj' hsplit' rfl
      exact hdomains before r after' rfl

theorem Synced.refl (hdb : Numbered db.nextId db.serviceDomains) (serviceId : Uuid) :
    Synced db serviceId [] db :=
  ⟨fun _ => ⟨.inl, fun hh => hh.elim id fun hh => nomatch hh.2⟩, rfl, hdb, fun _ => rfl⟩

/-- **The loop, as far as nothing is refused**: by induction on the hostnames from the last
one, since what is refused depends on those before it. -/
theorem syncs_iff (cfg : ApiConfig) (hdb : Numbered db.nextId db.serviceDomains)
    (serviceId : Uuid) (domains : List String) : (NoneRefused cfg db serviceId domains → ∃ db',
        Returns (domains.forM (syncRow cfg db serviceId)) db ⟨⟩ db') ∧
      ∀ db', Returns (domains.forM (syncRow cfg db serviceId)) db ⟨⟩ db' →
        NoneRefused cfg db serviceId domains ∧ Synced db serviceId domains db' := by
  induction domains using List.reverseRecOn with
  | nil =>
    refine ⟨fun _ => ⟨db, returns_pure.mpr ⟨rfl, rfl⟩⟩, fun db' h => ?_⟩
    obtain ⟨-, rfl⟩ := returns_pure.mp h
    exact ⟨fun before raw after hsplit => absurd hsplit (by simp), .refl hdb serviceId⟩
  | append_singleton domains raw ih =>
    refine ⟨fun hnone => ?_, fun db' h => ?_⟩
    · obtain ⟨hdomains, hraw⟩ := noneRefused_concat.mp hnone
      obtain ⟨db1, hreturns⟩ := ih.1 hdomains
      rcases syncRow_cases cfg (ih.2 db1 hreturns).2 raw with ⟨href, -⟩ | ⟨-, db2, hrow, -⟩
      · exact absurd href hraw
      · exact ⟨db2, returns_forM_concat.mpr ⟨db1, hreturns, hrow⟩⟩
    · obtain ⟨db1, hreturns, hrow⟩ := returns_forM_concat.mp h
      obtain ⟨hdomains, hsynced⟩ := ih.2 db1 hreturns
      rcases syncRow_cases cfg hsynced raw with ⟨-, e, hfails⟩ | ⟨hraw, db2, hrow2, hsynced2⟩
      · rw [Returns, hfails] at hrow
        cases hrow
      · rw [Returns, hrow2] at hrow
        injection hrow with _ hdb2
        subst hdb2
        exact ⟨noneRefused_concat.mpr ⟨hdomains, hraw⟩, hsynced2⟩

/-- The loop fails at the first hostname that is refused. -/
theorem fails_syncDomainRows (cfg : ApiConfig) (hdb : Numbered db.nextId db.serviceDomains) :
    Fails (syncDomainRows cfg service) db db' ↔ ∃ before raw after,
      service.domains = before ++ raw :: after ∧ NoneRefused cfg db service.id before ∧
        Refused cfg db service.id before raw ∧
        Returns (before.forM (syncRow cfg db service.id)) db ⟨⟩ db' := by
  unfold syncDomainRows
  rw [fails_get_bind, fails_forM]
  constructor
  · rintro ⟨before, raw, after, db1, hsplit, hbefore, hraw⟩
    obtain ⟨hnone, hsynced⟩ := (syncs_iff cfg hdb service.id before).2 db1 hbefore
    obtain ⟨e, hraw⟩ := hraw
    rcases syncRow_cases cfg hsynced raw with ⟨href, e', hfails⟩ | ⟨-, db2, hrow, -⟩
    · rw [hraw] at hfails
      injection hfails with _ hdb1
      subst hdb1
      exact ⟨before, raw, after, hsplit, hnone, href, hbefore⟩
    · rw [Returns, hraw] at hrow
      cases hrow
  · rintro ⟨before, raw, after, hsplit, -, href, hbefore⟩
    obtain ⟨-, hsynced⟩ := (syncs_iff cfg hdb service.id before).2 db' hbefore
    refine ⟨before, raw, after, db', hsplit, hbefore, ?_⟩
    rcases syncRow_cases cfg hsynced raw with ⟨-, hfails⟩ | ⟨hnot, -⟩
    · exact hfails
    · exact absurd href hnot

end

/-! ## §4. Up to the save. -/

/-- **The request comes to its save**, with this row. -/
structure Database.Saves (cfg : ApiConfig) (principal : Principal) (request : ServiceConfig)
    (db : Database) (saved : ServiceConfig) : Prop where
  auth : db.Authorized principal request.projectId .operator
  valid : (db.hydrate request).validate cfg = .ok ()
  legacy : (db.hydrate request).source.legacyCredential = false
  registry : db.RegistryFits (db.hydrate request).projectId (db.hydrate request).source
  acme : (db.hydrate request).tlsEnabled = true → cfg.acmeEmail = true
  resolves : db.Resolves (db.hydrate request) saved
  row : ∀ existing, db.serviceNamed saved.projectId saved.name = some existing →
    existing.id = saved.id
  free : db.serviceNamed saved.projectId saved.name = none → saved.id ∉ db.services

section
variable {principal : Principal} {request saved : ServiceConfig}

theorem readOnly_ensureRole (principal : Principal) (projectId : Uuid) (min : Role) :
    ReadOnly (ensureRole principal projectId min) := by
  unfold ensureRole ensureRoleOr
  split
  · exact readOnly_pure _
  · refine readOnly_bind (readOnly_found _ _) fun userId => readOnly_bind readOnly_get fun db => ?_
    exact readOnly_bind (readOnly_found _ _) fun role => readOnly_ensure _ _

theorem readOnly_checkRegistry (projectId : Uuid) (source : ServiceSource) :
    ReadOnly (checkRegistry projectId source) := by
  unfold checkRegistry
  split
  · exact readOnly_pure _
  · refine readOnly_bind readOnly_get fun db => ?_
    exact readOnly_bind (readOnly_found _ _) fun registry => readOnly_ensure _ _

theorem failsClean_resolveId (service : ServiceConfig) : FailsClean (resolveId service) := by
  unfold resolveId
  refine failsClean_bind readOnly_get fun db => ?_
  split
  · split
    · exact (readOnly_pure _).failsClean
    · -- a fresh id cannot be refused
      rintro db1 db' ⟨e, h⟩
      cases h
  · refine (readOnly_bind (readOnly_found _ _) fun existing => ?_).failsClean
    exact readOnly_bind (readOnly_ensure _ _) fun _ => readOnly_pure _

/-- A request that is refused before its save has written nothing. -/
theorem failsClean_checkService (cfg : ApiConfig) (principal : Principal)
    (request : ServiceConfig) : FailsClean (checkService cfg principal request) := by
  unfold checkService
  refine failsClean_bind (readOnly_ensureRole _ _ _) fun _ => failsClean_bind readOnly_get ?_
  refine fun db => failsClean_bind (readOnly_accept _) fun _ => ?_
  refine failsClean_bind (readOnly_ensure _ _) fun _ => ?_
  refine failsClean_bind (readOnly_checkRegistry _ _) fun _ => ?_
  exact failsClean_bind (readOnly_ensure _ _) fun _ => failsClean_resolveId _

theorem putService_eq_ok {n : Uuid} : Database.putService { db with nextId := n } saved = .ok db' ↔
      ((∀ existing, db.serviceNamed saved.projectId saved.name = some existing →
          existing.id = saved.id) ∧
        (db.serviceNamed saved.projectId saved.name = none → saved.id ∉ db.services)) ∧
      db' = { db with nextId := n, services := db.services.insert saved.id saved } := by
  unfold Database.putService
  have hnamed : Database.serviceNamed { db with nextId := n } saved.projectId saved.name
      = db.serviceNamed saved.projectId saved.name := rfl
  rw [hnamed]
  cases db.serviceNamed saved.projectId saved.name with
  | some existing =>
    by_cases hid : existing.id = saved.id
    · simp [hid, eq_comm]
    · simp [hid]
  | none =>
    by_cases hmem : saved.id ∈ db.services
    · simp [hmem]
    · simp [hmem, eq_comm]

/-! ## §5. All or nothing. -/

/-- The tables once the service is saved. -/
def Database.afterSave (db : Database) (request saved : ServiceConfig) : Database :=
  { db with
    nextId := db.nextIdAfter (db.hydrate request)
    services := db.services.insert saved.id saved }

/-- **Where a refused request ends**: at a check, with nothing written, or at a hostname. -/
theorem fails_putService (h : Fails (putService cfg principal request) db db') :
    SameRows db db' ∨ ∃ saved, db.Saves cfg principal request saved ∧
      Fails (syncDomainRows cfg saved) (db.afterSave request saved) db' := by
  unfold putService at h
  rcases fails_bind.mp h with h | ⟨saved, db1, hchecks, h⟩
  · obtain rfl := failsClean_checkService _ _ _ _ _ h
    exact .inl ⟨fun _ => rfl, fun _ => rfl⟩
  obtain ⟨⟨hauth, hvalid, hlegacy, hfits, hacme, hresolves⟩, rfl⟩ := returns_checkService.mp hchecks
  rcases fails_bind.mp h with ⟨e, hcall⟩ | ⟨_, db2, hcall, hsync⟩
  · obtain rfl := state_of_call_error hcall
    exact .inl ⟨fun _ => rfl, fun _ => rfl⟩
  · obtain ⟨⟨hrow, hfree⟩, rfl⟩ := putService_eq_ok.mp (returns_call.mp hcall)
    exact .inr ⟨saved, ⟨hauth, hvalid, hlegacy, hfits, hacme, hresolves, hrow, hfree⟩, hsync⟩

/-- A request that comes to its save fails if a hostname is refused. -/
theorem fails_of_saves (hsaves : db.Saves cfg principal request saved)
    (h : Fails (syncDomainRows cfg saved) (db.afterSave request saved) db') :
    Fails (putService cfg principal request) db db' := by
  unfold putService
  refine fails_bind.mpr (.inr ⟨saved, _, returns_checkService.mpr ⟨⟨hsaves.auth, hsaves.valid,
    hsaves.legacy, hsaves.registry, hsaves.acme, hsaves.resolves⟩, rfl⟩, ?_⟩)
  refine fails_bind.mpr (.inr ⟨⟨⟩, db.afterSave request saved, returns_call.mpr ?_, h⟩)
  exact putService_eq_ok.mpr ⟨⟨hsaves.row, hsaves.free⟩, rfl⟩

/-- **A refused request has changed nothing** — exactly if, whenever it comes to its save and
one of its hostnames is refused, the row it saves is the one that is stored, and the service
has rows for all hostnames before the first one that is refused.  Ids are new. -/
theorem put_service_all_or_nothing_iff (cfg : ApiConfig) (principal : Principal)
    (request : ServiceConfig) {db : Database} (hdb : Numbered db.nextId db.serviceDomains) :
    (∀ e db', runProg (putService cfg principal request) db = (.error e, db') →
        SameRows db db') ↔
      ∀ saved, db.Saves cfg principal request saved → ∀ before raw after,
        saved.domains = before ++ raw :: after → NoneRefused cfg db saved.id before →
        Refused cfg db saved.id before raw →
        db.getService saved.id = some saved ∧ ∀ r ∈ before, Known db saved.id r := by
  have hnumbered : ∀ saved, Numbered (db.afterSave request saved).nextId
      (db.afterSave request saved).serviceDomains := fun _ => hdb.mono (le_nextIdAfter db _)
  constructor
  · intro hall saved hsaves before raw after hsplit hnone href
    obtain ⟨db', hbefore⟩ := (syncs_iff cfg (hnumbered saved) saved.id before).1 hnone
    obtain ⟨-, hsynced⟩ := (syncs_iff cfg (hnumbered saved) saved.id before).2 db' hbefore
    obtain ⟨e, hrun⟩ := fails_of_saves hsaves ((fails_syncDomainRows cfg (hnumbered saved)).mpr
      ⟨before, raw, after, hsplit, hnone, href, hbefore⟩)
    obtain ⟨hservices, hdomains⟩ := hall e db' hrun
    refine ⟨?_, fun r hr => ?_⟩
    · have hrow := hservices saved.id
      rw [hsynced.services] at hrow
      exact hrow.symm.trans (AList.lookup_insert _)
    · -- a hostname that is new would have a row by now
      by_contra hunknown
      obtain ⟨front, back, hfront⟩ := List.append_of_mem hr
      have hpasses := hnone front r back hfront
      have hex : ∃ h, validateHostname r = .ok h ∧ h.name ∉ db.serviceHostnames saved.id ∧
          ¬ db.HasHostname h := by
        cases hvalid : validateHostname r with
        | error => exact absurd (fun h hh => (by rw [hvalid] at hh; cases hh)) hpasses
        | ok h =>
          have hnew : h.name ∉ db.serviceHostnames saved.id := fun hmem =>
            hunknown ⟨h, hvalid, hmem⟩
          refine ⟨h, rfl, hnew, fun htaken => hpasses fun h' hh => ?_⟩
          cases hvalid.symm.trans hh
          exact ⟨hnew, .inr (.inl htaken)⟩
      obtain ⟨h, hvalid, hnew, hnot⟩ := hex
      obtain ⟨id, d, hd, hhost⟩ := (hsynced.hostnames h).mpr (.inr ⟨hnew, r, hr, hvalid⟩)
      exact hnot ⟨id, d, (hdomains id).symm.trans hd, hhost⟩
  · intro hcondition e db' hrun
    rcases fails_putService ⟨e, hrun⟩ with hsame | ⟨saved, hsaves, hsync⟩
    · exact hsame
    · obtain ⟨before, raw, after, hsplit, hnone, href, hbefore⟩ :=
        (fails_syncDomainRows cfg (hnumbered saved)).mp hsync
      obtain ⟨hrow, hknown⟩ := hcondition saved hsaves before raw after hsplit hnone href
      obtain ⟨-, hsynced⟩ := (syncs_iff cfg (hnumbered saved) saved.id before).2 db' hbefore
      have hdb' := hsynced.known hknown
      subst hdb'
      refine ⟨fun id => ?_, fun _ => rfl⟩
      by_cases hid : id = saved.id
      · subst hid
        exact (AList.lookup_insert _).trans hrow.symm
      · exact AList.lookup_insert_ne hid

end

/-! ## §6. A refused service. -/

/-- A service of the default project, with a hostname. -/
def shopService : ServiceConfig :=
  { ServiceConfig.plain Uuid.nil 1 "shop" with domains := ["shop.example.com"] }

/-- A service that asks for the hostname of the other as well. -/
def apiService : ServiceConfig :=
  { ServiceConfig.plain Uuid.nil 1 "api" with
    domains := ["api.example.com", "shop.example.com"]
    env := [("MODE", "production")]
    endpoints := [{ name := "metrics", protocol := .tcp, internalPort := 9090 }] }

/-- Its request. -/
def refusedPut (db : Database) : Except ApiError PUnit × Database :=
  runProg (putService plainConfig .superAdmin apiService) db

theorem numbered_of_keys {β : Type} {t : AList fun _ : Uuid => β} {n : Uuid}
    (h : ∀ key ∈ t.keys, key < n) : Numbered n t := fun id hid =>
  AList.lookup_eq_none.mpr fun hmem => absurd (h id hmem) (Nat.not_lt.mpr hid)

/-- **A refused service is stored.**  Its second hostname is taken: the request is answered
with a conflict, the service and the row of its first hostname are there. -/
theorem refused_service_is_stored :
    ∃ db db', exec (Database.step plainConfig) .migrated [.putService .superAdmin shopService]
        = some db ∧
      runProg (putService plainConfig .superAdmin apiService) db
        = (.error (.conflict "hostname already in use: shop.example.com"), db') ∧
      Numbered db.nextId db.serviceDomains ∧ ¬ SameRows db db' ∧
      db.serviceNamed 1 "api" = none ∧ (db'.serviceNamed 1 "api").isSome = true := by
  obtain ⟨db, hdb, herror, hkeys, hold, hnew, hnone, hsome⟩ :
      ∃ db ∈ exec (Database.step plainConfig) .migrated [.putService .superAdmin shopService],
        failure (refusedPut db).1
          = some (.conflict "hostname already in use: shop.example.com") ∧
        (∀ key ∈ db.serviceDomains.keys, key < db.nextId) ∧
        db.services.lookup 4 = none ∧ (refusedPut db).2.services.lookup 4 ≠ none ∧
        db.serviceNamed 1 "api" = none ∧
        ((refusedPut db).2.serviceNamed 1 "api").isSome = true := by
    decide +kernel
  exact ⟨db, (refusedPut db).2, hdb, Prod.ext (failure_eq_some.mp herror) rfl,
    numbered_of_keys hkeys, fun hsame => hnew ((hsame.1 4).trans hold), hnone, hsome⟩

/-- **The same request again changes nothing**: it is refused again, and what it stores
before that is there. -/
theorem put_service_all_or_nothing_again :
    ∃ db, exec (Database.step plainConfig) .migrated [.putService .superAdmin shopService]
        = some db ∧
      failure (refusedPut (refusedPut db).2).1
        = some (.conflict "hostname already in use: shop.example.com") ∧
      ∀ e db', refusedPut (refusedPut db).2 = (.error e, db') →
        SameRows (refusedPut db).2 db' := by
  obtain ⟨db, hdb, herror, hkeys, hnamed, hrow, hknown⟩ :
      ∃ db ∈ exec (Database.step plainConfig) .migrated [.putService .superAdmin shopService],
        failure (refusedPut (refusedPut db).2).1
          = some (.conflict "hostname already in use: shop.example.com") ∧
        (∀ key ∈ (refusedPut db).2.serviceDomains.keys, key < (refusedPut db).2.nextId) ∧
        ((refusedPut db).2.serviceNamed 1 "api").map (·.id) = some 4 ∧
        (refusedPut db).2.services.lookup 4 = some { apiService with id := 4 } ∧
        "api.example.com" ∈ (refusedPut db).2.serviceHostnames 4 := by
    decide +kernel
  refine ⟨db, hdb, herror, (put_service_all_or_nothing_iff plainConfig .superAdmin apiService
    (numbered_of_keys hkeys)).mpr ?_⟩
  intro saved hsaves before raw after hsplit _ _
  obtain rfl : saved = { apiService with id := 4 } := by
    have hsaved : (refusedPut db).2.Resolves apiService saved := hsaves.resolves
    have hid : ((refusedPut db).2.serviceNamed apiService.projectId apiService.name).map (·.id)
        = some 4 := hnamed
    rwa [Database.Resolves, if_pos (show apiService.id = Uuid.nil from rfl), hid] at hsaved
  refine ⟨hrow, fun r hr => ?_⟩
  -- only the first of the two hostnames can stand before a refused one
  obtain rfl : r = "api.example.com" := by
    rcases before with _ | ⟨first, _ | ⟨second, rest⟩⟩
    · cases hr
    · rw [List.mem_singleton.mp hr]
      exact (List.cons.inj hsplit).1.symm
    · exact absurd (List.cons.inj (List.cons.inj hsplit).2).2.symm (by simp)
  exact ⟨⟨"api.example.com", by decide +kernel⟩, by decide +kernel, hknown⟩

end Denia.Tenancy
