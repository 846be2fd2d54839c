/-
  Denia.Ingress.Routes — the host-indexed route table and `validate_domain`
  (`src/ingress/pingora/state.rs`), and the table built from a snapshot of route
  specs (`route_table_from_snapshot` in `src/deploy/routes.rs`).

  Main results: `routeTableFromSnapshot_ok_iff`, which snapshots give a table, and
  `routeTableFromSnapshot_resolve`, which service it resolves a host to.
-/
import Denia.Domain
import Denia.Verification.Hostname

namespace Denia

open Verification

/-- `IngressError`. -/
inductive IngressError where
  | emptyServiceName
  | missingDomain
  | invalidDomain (domain : String)
  deriving DecidableEq

/-- `to_ascii_lowercase`. -/
def asciiLowercase (s : String) : String := String.ofList (s.toList.map Char.toLower)

/-- The checks of `validate_domain`; each of them rejects with the same error. -/
def domainOk (s : List Char) : Bool :=
  !(trim s).isEmpty && byteLength s ≤ 253 &&
    s.all (fun c => 32 < c.toNat && c.toNat < 127 && c != '\x60' && c != '*') &&
    s.head? != some '.' && s.getLast? != some '.' &&
    (labels s).all fun l => !l.isEmpty && byteLength l ≤ 63

/-- `validate_domain`. -/
def validateDomain (domain : String) : Except IngressError String :=
  if domainOk domain.toList then .ok (asciiLowercase domain) else .error (.invalidDomain domain)

/-- `RouteSpec`.  `routeKey` is the text of the service id with a fixed head, so the
id stands for both it and `service_id`. -/
structure RouteSpec where
  serviceId : Uuid
  serviceName : String
  domains : List String
  tls : Bool
  deriving DecidableEq

/-- `RouteTable`: each domain maps to its route. -/
structure RouteTable where
  byHost : AList fun _ : String => RouteSpec

namespace RouteTable

/-- No route. -/
def empty : RouteTable := ⟨∅⟩

/-- `try_upsert`. -/
def tryUpsert (t : RouteTable) (spec : RouteSpec) : Except IngressError RouteTable :=
  if (trim spec.serviceName.toList).isEmpty then .error .emptyServiceName
  else if spec.domains.isEmpty then .error .missingDomain
  else
    match spec.domains.mapM validateDomain with
    | .error e => .error e
    | .ok hosts => .ok ⟨hosts.foldl (fun m host => m.insert host spec) t.byHost⟩

/-- `resolve`. -/
def resolve (t : RouteTable) (host : String) : Option RouteSpec :=
  t.byHost.lookup (asciiLowercase host)

end RouteTable

/-- The loop of `route_table_from_snapshot`. -/
def upsertAll : List RouteSpec → RouteTable → Except IngressError RouteTable
  | [], t => .ok t
  | spec :: rest, t =>
      if spec.domains.isEmpty then upsertAll rest t
      else
        match t.tryUpsert spec with
        | .error e => .error e
        | .ok t => upsertAll rest t

/-- The routes by service. -/
abbrev RouteSnapshot := AList fun _ : Uuid => RouteSpec

/-- `route_table_from_snapshot`, over the values of the snapshot in their order. -/
def routeTableFromSnapshot (snapshot : RouteSnapshot) : Except IngressError RouteTable :=
  upsertAll (snapshot.entries.map (·.2)) .empty

/-! ## Lower case. -/

theorem toLower_of_not_isUpper {c : Char} (h : c.isUpper = false) : c.toLower = c := by
  delta Char.isUpper at h
  unfold Char.toLower
  split
  next hc =>
    have h : 65 ≤ c.val → 90 < c.val := by simpa using h
    exact absurd hc.2 (UInt32.not_le.mpr (h hc.1))
  next => rfl

/-- A hostname is its own lower-case form. -/
theorem asciiLowercase_hostname (h : Hostname) : asciiLowercase h.name = h.name := by
  have hsame : h.name.toList.map Char.toLower = h.name.toList := by
    conv_rhs => rw [← List.map_id h.name.toList]
    exact List.map_congr_left fun c hc => toLower_of_not_isUpper (h.not_isUpper hc)
  unfold asciiLowercase
  rw [hsame, String.ofList_toList]

/-! ## Which snapshots a table can be built from. -/

/-- `route_table_from_snapshot` takes the spec: it is skipped, or `try_upsert` accepts it. -/
def RouteSpec.Routable (spec : RouteSpec) : Prop :=
  spec.domains = [] ∨
    trim spec.serviceName.toList ≠ [] ∧ ∀ domain ∈ spec.domains, domainOk domain.toList = true

variable {host : String} {domains hosts : List String} {t t' : RouteTable} {spec : RouteSpec}
  {specs : List RouteSpec} {snapshot : RouteSnapshot}

theorem validateDomain_eq_ok {domain : String} :
    validateDomain domain = .ok host ↔ domainOk domain.toList = true ∧
      asciiLowercase domain = host := by
  unfold validateDomain
  split
  next h => exact ⟨fun heq => ⟨h, Except.ok.inj heq⟩, fun heq => congrArg Except.ok heq.2⟩
  next h => exact ⟨nofun, fun heq => absurd heq.1 h⟩

theorem mapM_validateDomain_ok_iff : (∃ hosts, domains.mapM validateDomain = .ok hosts) ↔
      ∀ domain ∈ domains, domainOk domain.toList = true := by
  induction domains with
  | nil => exact ⟨fun _ => nofun, fun _ => ⟨[], rfl⟩⟩
  | cons domain domains ih =>
    rw [List.mapM_cons, List.forall_mem_cons, ← ih]
    constructor
    · rintro ⟨hosts, h⟩
      cases hfirst : validateDomain domain with
      | error =>
        rw [hfirst] at h
        cases h
      | ok =>
        cases hothers : domains.mapM validateDomain with
        | error =>
          rw [hfirst, hothers] at h
          cases h
        | ok others => exact ⟨(validateDomain_eq_ok.mp hfirst).1, others, rfl⟩
    · rintro ⟨hfirst, others, hothers⟩
      rw [validateDomain_eq_ok.mpr ⟨hfirst, rfl⟩, hothers]
      exact ⟨asciiLowercase domain :: others, rfl⟩

theorem tryUpsert_ok_iff (hdomains : spec.domains ≠ []) :
    (∃ t', t.tryUpsert spec = .ok t') ↔ spec.Routable := by
  have hroutable : spec.Routable ↔
      trim spec.serviceName.toList ≠ [] ∧
        ∃ hosts, spec.domains.mapM validateDomain = .ok hosts := by
    rw [mapM_validateDomain_ok_iff]
    exact ⟨fun h => h.resolve_left hdomains, .inr⟩
  rw [hroutable]
  unfold RouteTable.tryUpsert
  split
  next hname => exact ⟨nofun, fun h => absurd (List.isEmpty_iff.mp hname) h.1⟩
  next hname =>
    rw [if_neg fun h => hdomains (List.isEmpty_iff.mp h)]
    have hname : trim spec.serviceName.toList ≠ [] := fun h => hname (List.isEmpty_iff.mpr h)
    cases hmap : spec.domains.mapM validateDomain with
    | error => exact ⟨nofun, fun h => nomatch h.2⟩
    | ok hosts => exact ⟨fun _ => ⟨hname, hosts, rfl⟩, fun _ => ⟨_, rfl⟩⟩

theorem upsertAll_ok_iff :
    (∃ table, upsertAll specs t = .ok table) ↔ ∀ spec ∈ specs, spec.Routable := by
  induction specs generalizing t with
  | nil => exact ⟨fun _ => nofun, fun _ => ⟨t, rfl⟩⟩
  | cons spec specs ih =>
    rw [List.forall_mem_cons, upsertAll]
    split
    next hempty =>
      rw [ih]
      exact ⟨fun h => ⟨.inl (List.isEmpty_iff.mp hempty), h⟩, fun h => h.2⟩
    next hnonempty =>
      rw [← tryUpsert_ok_iff (t := t) fun h => hnonempty (List.isEmpty_iff.mpr h)]
      cases t.tryUpsert spec with
      | error => exact ⟨nofun, fun h => nomatch h.1⟩
      | ok t' => exact ih.trans ⟨fun h => ⟨⟨t', rfl⟩, h⟩, fun h => h.2⟩

theorem mem_values : spec ∈ snapshot.entries.map (·.2) ↔ ∃ id, snapshot.lookup id = some spec := by
  constructor
  · intro h
    obtain ⟨e, he, rfl⟩ := List.mem_map.mp h
    exact ⟨e.1, AList.mem_lookup_iff.mpr he⟩
  · rintro ⟨id, hid⟩
    exact List.mem_map.mpr ⟨⟨id, spec⟩, AList.mem_lookup_iff.mp hid, rfl⟩

/-- **One spec decides for all**: the table can be built exactly if every entry of the
snapshot is routable. -/
theorem routeTableFromSnapshot_ok_iff : (∃ table, routeTableFromSnapshot snapshot = .ok table) ↔
      ∀ id spec, snapshot.lookup id = some spec → spec.Routable := by
  unfold routeTableFromSnapshot
  rw [upsertAll_ok_iff]
  exact ⟨fun h id spec hid => h spec (mem_values.mpr ⟨id, hid⟩),
    fun h spec hspec => (mem_values.mp hspec).elim fun id hid => h id spec hid⟩

/-! ## What a table built from a snapshot resolves. -/

theorem lookup_foldl_insert {m : AList fun _ : String => RouteSpec} :
    (hosts.foldl (fun m host => m.insert host spec) m).lookup host
      = if host ∈ hosts then some spec else m.lookup host := by
  induction hosts generalizing m with
  | nil => simp
  | cons h hs ih =>
    rw [List.foldl_cons, ih]
    by_cases hmem : host ∈ hs
    · simp [hmem]
    · by_cases heq : host = h
      · subst heq
        simp [hmem]
      · simp [hmem, heq]

/-- `mapM validate_domain` gives the lower-case forms, in order. -/
theorem mapM_validateDomain (h : domains.mapM validateDomain = .ok hosts) :
    hosts = domains.map asciiLowercase := by
  induction domains generalizing hosts with
  | nil =>
    injection h with h
    exact h.symm
  | cons d ds ih =>
    rw [List.mapM_cons] at h
    unfold validateDomain at h
    split at h
    next =>
      cases hrest : ds.mapM validateDomain with
      | error =>
        unfold validateDomain at hrest
        simp only [hrest] at h
        cases h
      | ok =>
        have hmap := ih hrest
        unfold validateDomain at hrest
        simp only [hrest] at h
        injection h with h
        rw [← h, hmap, List.map_cons]
    next => cases h

theorem tryUpsert_ok (h : t.tryUpsert spec = .ok t') (host : String) : t'.byHost.lookup host
      = if host ∈ spec.domains.map asciiLowercase then some spec else t.byHost.lookup host := by
  unfold RouteTable.tryUpsert at h
  split at h
  next => cases h
  next =>
    split at h
    next => cases h
    next =>
      split at h <;> cases h
      next hosts hhosts => rw [lookup_foldl_insert, mapM_validateDomain hhosts]

/-- The table after the loop: a host belongs to a spec of the list that names it, or to
the table the loop started from when none does. -/
theorem upsertAll_lookup (h : upsertAll specs t = .ok t') (host : String) :
    (∀ spec, t'.byHost.lookup host = some spec →
        (spec ∈ specs ∧ host ∈ spec.domains.map asciiLowercase) ∨
          t.byHost.lookup host = some spec) ∧
      ((∃ spec ∈ specs, host ∈ spec.domains.map asciiLowercase) →
        ∃ spec ∈ specs, host ∈ spec.domains.map asciiLowercase ∧
          t'.byHost.lookup host = some spec) ∧
      ((∀ spec ∈ specs, host ∉ spec.domains.map asciiLowercase) →
        t'.byHost.lookup host = t.byHost.lookup host) := by
  induction specs generalizing t with
  | nil =>
    cases h
    refine ⟨fun _ h => .inr h, ?_, fun _ => rfl⟩
    rintro ⟨spec, hs, -⟩
    cases hs
  | cons spec rest ih =>
    unfold upsertAll at h
    split at h
    next hempty =>
      have hnil : spec.domains = [] := List.isEmpty_iff.mp hempty
      obtain ⟨h1, h2, h3⟩ := ih h
      refine ⟨fun s hs => ?_, ?_, fun hnone => h3 fun s hs => hnone s (List.mem_cons_of_mem _ hs)⟩
      · rcases h1 s hs with ⟨hmem, hhost⟩ | hold
        · exact .inl ⟨List.mem_cons_of_mem _ hmem, hhost⟩
        · exact .inr hold
      · rintro ⟨s, hs, hhost⟩
        rcases List.mem_cons.mp hs with rfl | hs
        · simp [hnil] at hhost
        · obtain ⟨s', hs', hhost', hlook⟩ := h2 ⟨s, hs, hhost⟩
          exact ⟨s', List.mem_cons_of_mem _ hs', hhost', hlook⟩
    next =>
      split at h
      next => cases h
      next t1 hupsert =>
        have hfirst := tryUpsert_ok hupsert host
        obtain ⟨h1, h2, h3⟩ := ih h
        refine ⟨fun s hs => ?_, ?_, fun hnone => ?_⟩
        · rcases h1 s hs with ⟨hmem, hhost⟩ | hold
          · exact .inl ⟨List.mem_cons_of_mem _ hmem, hhost⟩
          · rw [hfirst] at hold
            split at hold
            next hin =>
              cases hold
              exact .inl ⟨List.mem_cons_self, hin⟩
            next => exact .inr hold
        · rintro ⟨s, hs, hhost⟩
          -- a later spec of the host replaces this one
          by_cases hlater : ∃ s ∈ rest, host ∈ s.domains.map asciiLowercase
          · obtain ⟨s', hs', hhost', hlook⟩ := h2 hlater
            exact ⟨s', List.mem_cons_of_mem _ hs', hhost', hlook⟩
          · rcases List.mem_cons.mp hs with rfl | hs
            · refine ⟨s, List.mem_cons_self, hhost, ?_⟩
              rw [h3 fun s' hs' hin => hlater ⟨s', hs', hin⟩, hfirst, if_pos hhost]
            · exact absurd ⟨s, hs, hhost⟩ hlater
        · rw [h3 fun s' hs' => hnone s' (List.mem_cons_of_mem _ hs'), hfirst,
            if_neg (hnone spec List.mem_cons_self)]

/-- **What a table built from a snapshot resolves.**  When no two specs claim one
host, a host resolves to a spec exactly when the spec names it. -/
theorem routeTableFromSnapshot_resolve (h : routeTableFromSnapshot snapshot = .ok t)
    (huniq : ∀ k k' spec spec', snapshot.lookup k = some spec → snapshot.lookup k' = some spec' →
      asciiLowercase host ∈ spec.domains.map asciiLowercase →
      asciiLowercase host ∈ spec'.domains.map asciiLowercase → spec = spec') (spec : RouteSpec) :
    t.resolve host = some spec ↔
      (∃ k, snapshot.lookup k = some spec) ∧
        asciiLowercase host ∈ spec.domains.map asciiLowercase := by
  obtain ⟨h1, h2, -⟩ := upsertAll_lookup h (asciiLowercase host)
  constructor
  · intro hres
    rcases h1 spec hres with ⟨hs, hhost⟩ | hold
    · exact ⟨mem_values.mp hs, hhost⟩
    · cases hold
  · rintro ⟨⟨k, hk⟩, hhost⟩
    obtain ⟨s', hs', hhost', hlook⟩ := h2 ⟨spec, mem_values.mpr ⟨k, hk⟩, hhost⟩
    obtain ⟨k', hk'⟩ := mem_values.mp hs'
    rwa [huniq k k' spec s' hk hk' hhost hhost']

end Denia
