/-
  Denia.Ingress.AccessLog — WHOSE REQUESTS a service's request log shows
  (`src/ingress/pingora/proxy.rs`, `src/observability/access_log.rs`,
  `list_service_requests` in `src/api/observability.rs`).

  The proxy resolves a host to a route and logs the request under the route's
  `service_name`; `GET /v1/services/{id}/requests` reads the log under the text of the
  service's id.  A route's name is the service's name (`apply_routes`).

  Main results: `request_log_own_iff` — a log shows its own service EXACTLY if names are
  texts of ids; `routed_request_not_listed` — ordinary names.
-/
import Denia.Ingress.Routes
import Denia.Lib.KeyedLog
import Denia.Tenancy.Api

namespace Denia.Ingress

open Lib Tenancy Verification
open Registry (isAsciiHexdigit)

/-! ## §1. Entries and their store. -/

/-- `AccessEntry`. -/
structure AccessEntry where
  serviceName : String
  method : String
  path : String
  status : Nat
  bytes : Option Nat
  durationMs : Option Nat
  recordedAt : String
  deriving DecidableEq

/-- `PER_SERVICE_CAP`. -/
def perServiceCap : Nat := 200

/-- `AccessLogStore`. -/
abbrev AccessLogStore := KeyedLog String AccessEntry

/-- `AccessLogStore::append`. -/
def AccessLogStore.append (log : AccessLogStore) (entry : AccessEntry) : AccessLogStore :=
  KeyedLog.append perServiceCap log entry.serviceName entry

/-- `AccessLogStore::recent`. -/
def AccessLogStore.recent (log : AccessLogStore) (serviceName : String) : List AccessEntry :=
  (KeyedLog.of log serviceName).reverse

/-- `is_uuid_segment`. -/
def isUuidSegment (s : List Char) : Bool :=
  byteLength s = 36 && s.zipIdx.all fun (c, i) =>
    if i ∈ [8, 13, 18, 23] then c = '-' else isAsciiHexdigit c

/-- `is_token_segment`. -/
def isTokenSegment (s : List Char) : Bool := 32 < byteLength s && s.all isAsciiHexdigit

/-- What the loop of `sanitize_path` pushes for a segment. -/
def sanitizeSegment (segment : List Char) : List Char :=
  if isUuidSegment segment then "\x7bid\x7d".toList
  else if isTokenSegment segment then "\x7btoken\x7d".toList
  else segment

/-- The loop of `sanitize_path`. -/
def sanitizeSegments : List (List Char) → List Char → List Char
  | [], result => result
  | segment :: rest, result =>
      if result.isEmpty && segment.isEmpty then sanitizeSegments rest result
      else sanitizeSegments rest (result ++ '/' :: sanitizeSegment segment)

/-- `sanitize_path`. -/
def sanitizePath (path : String) : String :=
  let result := sanitizeSegments (path.toList.splitOn '/') []
  if result.isEmpty then "/" else String.ofList result

/-! ## §2. The proxy. -/

/-- A request as the proxy sees it, with what `logging` finds at its end: the status that
was written, the bytes sent, the time it took and the time it is. -/
structure ProxyRequest where
  /-- `is_http`: the listener is the one on `:80`. -/
  isHttp : Bool
  hostHeader : Option String
  authority : Option String
  method : String
  path : String
  responseWritten : Option Nat
  bodyBytesSent : Nat
  durationMs : Nat
  now : String

/-- What the proxy reads of its configuration. -/
structure ProxyConfig where
  controlDomain : Option String
  controlTls : Bool

/-- `strip_port`. -/
def stripPort (host : String) : String :=
  if host.toList.head? = some '[' then host
  else if ':' ∈ host.toList then
    -- `rsplit_once`: what stands before the last colon.
    String.ofList (host.toList.reverse.dropWhile (· ≠ ':')).tail.reverse
  else host

/-- `request_host`. -/
def ProxyRequest.host (req : ProxyRequest) : String :=
  match req.hostHeader, req.authority with
  | some value, _ => asciiLowercase (stripPort value)
  | none, some authority => asciiLowercase (stripPort authority)
  | none, none => ""

/-- `Port80Decision`. -/
inductive Port80Decision where
  | toControlBackend
  | redirect (location : String)
  | passthrough

/-- `ACME_CHALLENGE_PREFIX`. -/
def acmeChallengePath : String := "/.well-known/acme-challenge/"

/-- `DENIA_CHALLENGE_PREFIX`. -/
def deniaChallengePath : String := "/.well-known/denia-challenge/"

/-- `classify_port80`. -/
def classifyPort80 (path host : String) (tlsForHost : Option Bool) : Port80Decision :=
  if acmeChallengePath.toList.isPrefixOf path.toList ||
      deniaChallengePath.toList.isPrefixOf path.toList then .toControlBackend
  else if tlsForHost = some true then .redirect ("https://" ++ host ++ path)
  else .passthrough

/-- `is_control_host`. -/
def ProxyConfig.isControlHost (cfg : ProxyConfig) (host : String) : Bool :=
  cfg.controlDomain = some host

/-- `control_tls_for_host`. -/
def ProxyConfig.controlTlsForHost (cfg : ProxyConfig) (host : String) (routeTls : Option Bool) :
    Option Bool :=
  if cfg.isControlHost host then some cfg.controlTls else routeTls

/-- `request_filter`: on `:443` every request passes. -/
def requestFilter (cfg : ProxyConfig) (routes : RouteTable) (req : ProxyRequest) : Port80Decision :=
  if req.isHttp then
    classifyPort80 req.path req.host
      (cfg.controlTlsForHost req.host ((routes.resolve req.host).map (·.tls)))
  else .passthrough

/-- The route of `upstream_peer`: `none` when the request ends in a redirect, at the
control backend or in a 404, and then `ctx.service_name` stays unset. -/
def upstreamRoute (cfg : ProxyConfig) (routes : RouteTable) (req : ProxyRequest) :
    Option RouteSpec :=
  match requestFilter cfg routes req with
  | .toControlBackend | .redirect _ => none
  | .passthrough => if cfg.isControlHost req.host then none else routes.resolve req.host

/-- `build_access_entry`, with the values `logging` calls it on. -/
def buildAccessEntry (serviceName : String) (req : ProxyRequest) : AccessEntry where
  serviceName := serviceName
  method := req.method
  path := sanitizePath req.path
  status := req.responseWritten.getD 0
  bytes := some req.bodyBytesSent
  durationMs := some req.durationMs
  recordedAt := req.now

/-- The part of `IngressState` that is read here, and what was ROUTED so far: the id of
each route with the entry made for the request, oldest first (history). -/
structure ProxyState where
  routes : RouteTable
  accessLog : AccessLogStore
  routed : List (Uuid × AccessEntry)

/-- A daemon that has just started. -/
def ProxyState.new : ProxyState := ⟨.empty, ∅, []⟩

/-- The route `apply_routes` and `rebuild_routes_on_boot` give a service with its verified
hostnames. -/
def routeSpec (service : ServiceConfig) (hostnames : List String) : RouteSpec :=
  { serviceId := service.id, serviceName := service.name, domains := hostnames,
    tls := service.tlsEnabled }

/-- A request is served, or the routes change. -/
inductive ProxyEvent where
  /-- `swap_routes`, on the table of the services that are routed, with their hostnames. -/
  | swapRoutes (services : List (ServiceConfig × List String))
  /-- A request, from `request_filter` to `logging`. -/
  | request (req : ProxyRequest)

/-- The snapshot of the routed services. -/
def routeSnapshot (services : List (ServiceConfig × List String)) : RouteSnapshot :=
  services.foldl (fun snapshot s => snapshot.insert s.1.id (routeSpec s.1 s.2)) ∅

/-- One event. -/
def ProxyState.step (cfg : ProxyConfig) (σ : ProxyState) : ProxyEvent → Option ProxyState
  | .swapRoutes services =>
      match routeTableFromSnapshot (routeSnapshot services) with
      | .error _ => none
      | .ok table => some { σ with routes := table }
  | .request req =>
      match upstreamRoute cfg σ.routes req with
      | none => some σ
      | some route =>
          let entry := buildAccessEntry route.serviceName req
          some { σ with
            accessLog := σ.accessLog.append entry
            routed := σ.routed ++ [(route.serviceId, entry)] }

/-- `Uuid::to_string`: ids have different texts. -/
structure UuidText where
  text : Uuid → String
  injective : Function.Injective text

/-- `list_service_requests`. -/
def listServiceRequests (ids : UuidText) (log : AccessLogStore) (principal : Principal)
    (serviceId : Uuid) : Api (List AccessEntry) := do
  let db ← get
  let service ← found (db.getService serviceId) (.notFound "service not found")
  ensureRole principal service.projectId .operator
  pure (log.recent (ids.text service.id))

/-! ## §3. What the logs hold. -/

variable {cfg : ProxyConfig} {ids : UuidText} {σ σ' : ProxyState}

/-- The listing is the service's own: whoever may read it gets the last requests routed
to the service, newest first, and nothing else. -/
def ProxyState.ListsOwn (ids : UuidText) (σ : ProxyState) : Prop :=
  ∀ (db : Database) principal serviceId service, db.getService serviceId = some service →
    db.Authorized principal service.projectId .operator →
    Returns (listServiceRequests ids σ.accessLog principal serviceId) db
      ((entriesOf σ.routed service.id).reverse.take perServiceCap) db

/-- A request that is routed goes to a service named by its own id. -/
def NamedById (cfg : ProxyConfig) (ids : UuidText) (σ : ProxyState) : ProxyEvent → Prop
  | .swapRoutes _ => True
  | .request req =>
      ∀ route ∈ upstreamRoute cfg σ.routes req, route.serviceName = ids.text route.serviceId

instance : DecidablePred (NamedById cfg ids σ) := fun e =>
  match e with
  | .swapRoutes _ => inferInstanceAs (Decidable True)
  | .request req => inferInstanceAs (Decidable (∀ route ∈ upstreamRoute cfg σ.routes req, _))

/-- The entries that were made, under the keys they were appended to. -/
def ProxyState.byKey (σ : ProxyState) : List (String × AccessEntry) :=
  σ.routed.map fun r => (r.2.serviceName, r.2)

/-- The store holds the last entries of each key, and the key of an entry is the id of
the service it was made for. -/
structure ProxyState.LoggedById (ids : UuidText) (σ : ProxyState) : Prop where
  records : Records perServiceCap σ.accessLog σ.byKey
  named : ∀ r ∈ σ.routed, r.2.serviceName = ids.text r.1

theorem loggedById_new : ProxyState.new.LoggedById ids := by
  refine ⟨records_nil, ?_⟩
  intro r hr
  cases hr

variable {e : ProxyEvent}

/-- What a step does to the log: nothing, and then no request was routed, or one routed
request is appended. -/
theorem step_log (h : σ.step cfg e = some σ') :
    ((∀ req, e = .request req → upstreamRoute cfg σ.routes req = none) ∧
        σ'.accessLog = σ.accessLog ∧ σ'.routed = σ.routed) ∨
      ∃ req route, e = .request req ∧ upstreamRoute cfg σ.routes req = some route ∧
        σ'.accessLog = σ.accessLog.append (buildAccessEntry route.serviceName req) ∧
        σ'.routed = σ.routed ++ [(route.serviceId, buildAccessEntry route.serviceName req)] := by
  cases e with
  | swapRoutes =>
    simp only [ProxyState.step] at h
    split at h <;> cases h
    refine .inl ⟨?_, rfl, rfl⟩
    intro req hreq
    cases hreq
  | request req =>
    simp only [ProxyState.step] at h
    split at h <;> cases h
    next hnone =>
      refine .inl ⟨?_, rfl, rfl⟩
      intro req' hreq
      cases hreq
      exact hnone
    next route hroute => exact .inr ⟨req, route, rfl, hroute, rfl, rfl⟩

/-- The store follows the entries whatever their keys are. -/
theorem records_step (h : σ.step cfg e = some σ') (hσ : Records perServiceCap σ.accessLog σ.byKey) :
    Records perServiceCap σ'.accessLog σ'.byKey := by
  unfold ProxyState.byKey at hσ ⊢
  rcases step_log h with ⟨-, hlog, hrouted⟩ | ⟨req, route, -, -, hlog, hrouted⟩
  · rwa [hlog, hrouted]
  · rw [hlog, hrouted, List.map_append]
    exact hσ.append (by decide) _ _

theorem loggedById_step (hσ : σ.LoggedById ids) (hnamed : NamedById cfg ids σ e)
    (h : σ.step cfg e = some σ') : σ'.LoggedById ids := by
  refine ⟨records_step h hσ.records, ?_⟩
  intro r hr
  rcases step_log h with ⟨-, -, hrouted⟩ | ⟨req, route, rfl, hroute, -, hrouted⟩
  · rw [hrouted] at hr
    exact hσ.named r hr
  · rw [hrouted] at hr
    rcases List.mem_append.mp hr with hr | hr
    · exact hσ.named r hr
    · obtain rfl := List.mem_singleton.mp hr
      exact hnamed route hroute

/-- Where keys are ids, the entries under an id's text are those of the service. -/
theorem ProxyState.LoggedById.entries_eq (hσ : σ.LoggedById ids) (serviceId : Uuid) :
    entriesOf σ.byKey (ids.text serviceId) = entriesOf σ.routed serviceId := by
  have hkey : ∀ r ∈ σ.routed, (decide (r.2.serviceName = ids.text serviceId))
      = decide (r.1 = serviceId) := by
    intro r hr
    rw [hσ.named r hr]
    exact decide_eq_decide.mpr ids.injective.eq_iff
  unfold entriesOf ProxyState.byKey
  rw [List.filter_map, List.map_map]
  show List.map Prod.snd (σ.routed.filter fun r => decide (r.2.serviceName = _)) = _
  rw [List.filter_congr hkey]

/-- What the handler returns. -/
theorem returns_listServiceRequests {log : AccessLogStore} {principal : Principal}
    {serviceId : Uuid} {db db' : Database} {entries : List AccessEntry} :
    Returns (listServiceRequests ids log principal serviceId) db entries db' ↔
      ∃ service, db.getService serviceId = some service ∧
        db.Authorized principal service.projectId .operator ∧
        entries = log.recent (ids.text service.id) ∧ db' = db := by
  unfold listServiceRequests
  simp only [returns_get_bind, returns_found_bind, returns_ensureRole_bind, returns_pure]

theorem ProxyState.LoggedById.listsOwn (hσ : σ.LoggedById ids) : σ.ListsOwn ids := by
  intro db principal serviceId service hservice hauth
  rw [returns_listServiceRequests]
  refine ⟨service, hservice, hauth, ?_, rfl⟩
  unfold AccessLogStore.recent
  rw [hσ.records, reverse_lastOf, hσ.entries_eq]

/-- A database with a service of the id. -/
def databaseWith (serviceId : Uuid) : Database :=
  { Database.migrated with
    services := Database.migrated.services.insert serviceId
      { id := serviceId, projectId := 1, name := "web", domains := [], source := .upload
        internalPort := 80, healthCheck := ⟨"/", 5⟩, tlsEnabled := false } }

/-- What the log of a key shows was made under the key. -/
theorem serviceName_of_recent (hσ : Records perServiceCap σ.accessLog σ.byKey)
    {serviceName : String} {entry : AccessEntry} (h : entry ∈ σ.accessLog.recent serviceName) :
    entry.serviceName = serviceName := by
  unfold AccessLogStore.recent at h
  rw [List.mem_reverse, hσ] at h
  have hmem : (serviceName, entry) ∈ σ.byKey := mem_entriesOf.mp (List.mem_of_mem_drop h)
  obtain ⟨r, -, hr⟩ := List.mem_map.mp hmem
  obtain ⟨hname, hentry⟩ := Prod.mk.inj hr
  rw [← hname, ← hentry]

/-- **A request that is logged elsewhere is missed**: its entry is the newest one of the
service, and the log under the id's text does not have it. -/
theorem not_listsOwn_of_not_named (hσ : σ.LoggedById ids) (hnamed : ¬ NamedById cfg ids σ e)
    (h : σ.step cfg e = some σ') : ¬ σ'.ListsOwn ids := by
  intro hown
  rcases step_log h with ⟨hnone, -, -⟩ | ⟨req, route, rfl, hroute, -, hrouted⟩
  · refine hnamed ?_
    cases e with
    | swapRoutes => trivial
    | request req =>
      intro route hroute
      simp [hnone req rfl] at hroute
  -- listed as its own, the request was logged under the id
  · have hreturns := hown (databaseWith route.serviceId) .superAdmin route.serviceId _
      (AList.lookup_insert _) (.inl rfl)
    obtain ⟨service, hservice, -, hentries, -⟩ := returns_listServiceRequests.mp hreturns
    have hid : service.id = route.serviceId := by
      have hfirst : some service = some _ := hservice.symm.trans (AList.lookup_insert _)
      injection hfirst with hfirst
      rw [hfirst]
    have hnewest : buildAccessEntry route.serviceName req ∈
        (entriesOf σ'.routed route.serviceId).reverse.take perServiceCap := by
      rw [hrouted, entriesOf_concat_self, List.reverse_append]
      exact List.mem_cons_self
    have hlisted : buildAccessEntry route.serviceName req ∈
        σ'.accessLog.recent (ids.text route.serviceId) := by
      rw [hid] at hentries
      rwa [← hentries]
    have hname : route.serviceName = ids.text route.serviceId :=
      serviceName_of_recent (records_step h hσ.records) hlisted
    refine hnamed fun route' hroute' => ?_
    rw [hroute] at hroute'
    cases hroute'
    exact hname

/-- **Own and complete request logs, exactly under names that are ids.**  For every run
of the proxy: in each of its states the listing of every service is what was routed to
it, the last two hundred, newest first, if and only if each request that was routed went
to a service whose name is the text of its id. -/
theorem request_log_own_iff {events : List ProxyEvent}
    (h : exec (ProxyState.step cfg) .new events = some σ) :
    (∀ before after u, events = before ++ after →
        exec (ProxyState.step cfg) .new before = some u → u.ListsOwn ids) ↔
      Guarded (ProxyState.step cfg) (NamedById cfg ids) .new events :=
  guarded_iff_exec (fun _ _ _ hs hg hstep => loggedById_step hs hg hstep)
    (fun _ _ _ hs hg hstep => not_listsOwn_of_not_named hs hg hstep)
    (fun _ hs => hs.listsOwn) loggedById_new h

/-! ## §4. A service with an ordinary name. -/

/-- The text of id 1. -/
def oneText : String := "00000000-0000-0000-0000-000000000001"

/-- The text of id 2. -/
def twoText : String := "00000000-0000-0000-0000-000000000002"

/-- `Uuid::to_string` on these ids; a text of strokes for any other. -/
def exampleText : UuidText where
  text := Lib.tabled [(1, oneText), (2, twoText)] fun id => String.ofList (List.replicate id 'i')
  injective := by
    refine Lib.tabled_injective (fun a b h => ?_) (by decide) fun p hp id heq => ?_
    · have hlength := congrArg List.length (String.ofList_injective h)
      rw [List.length_replicate, List.length_replicate] at hlength
      exact hlength
    · have hzero : ∀ p ∈ [(1, oneText), (2, twoText)], '0' ∈ p.2.toList := by decide
      have hmem := hzero p hp
      rw [heq, String.toList_ofList] at hmem
      exact absurd (List.eq_of_mem_replicate hmem) (by decide)

/-- A request to `/`. -/
def getRoot (host : String) : ProxyRequest :=
  { isHttp := true, hostHeader := some host, authority := none, method := "GET", path := "/"
    responseWritten := some 200, bodyBytesSent := 12, durationMs := 3, now := "today" }

/-- No control domain. -/
def plainProxy : ProxyConfig := ⟨none, false⟩

/-- The services 1 and 2 of two projects, and a request to each. -/
def twoServices (name other : String) : List ProxyEvent :=
  [.swapRoutes [(ServiceConfig.plain 1 1 name, ["a.example.com"]),
     (ServiceConfig.plain 2 2 other, ["b.example.com"])],
   .request (getRoot "a.example.com"), .request (getRoot "b.example.com:80")]

/-- What is listed of a service after the events. -/
def listedAfter (events : List ProxyEvent) (service : ServiceConfig) :
    Option (Except ApiError (List AccessEntry)) :=
  (exec (ProxyState.step plainProxy) .new events).map fun σ =>
    (runProg (listServiceRequests exampleText σ.accessLog .superAdmin service.id)
      { Database.migrated with
        services := Database.migrated.services.insert service.id service }).1

/-- **The request of a service is not in its log.**  Both services are named `web`: one
request was routed to the first, and its listing is empty.  When the second has the first
one's id for its name, the first one's listing is the request to the second. -/
theorem routed_request_not_listed :
    (exec (ProxyState.step plainProxy) .new (twoServices "web" "web")).map
        (fun σ => entriesOf σ.routed 1)
        = some [buildAccessEntry "web" (getRoot "a.example.com")] ∧
      listedAfter (twoServices "web" "web") (ServiceConfig.plain 1 1 "web") = some (.ok []) ∧
      listedAfter (twoServices "web" oneText) (ServiceConfig.plain 1 1 "web")
        = some (.ok [buildAccessEntry oneText (getRoot "b.example.com:80")]) := by
  decide +kernel

/-- Two services named by their ids. -/
theorem request_log_own_by_id :
    (exec (ProxyState.step plainProxy) .new (twoServices oneText twoText)).isSome = true ∧
      ∀ before after u, twoServices oneText twoText = before ++ after →
        exec (ProxyState.step plainProxy) .new before = some u → u.ListsOwn exampleText := by
  have hrun : (exec (ProxyState.step plainProxy)
      .new (twoServices oneText twoText)).isSome = true := by
    decide +kernel
  have hcheck : ∀ σ e, decide (NamedById plainProxy exampleText σ e) = true →
      NamedById plainProxy exampleText σ e := fun _ _ => of_decide_eq_true
  obtain ⟨σ, hσ⟩ := Option.isSome_iff_exists.mp hrun
  exact ⟨hrun, (request_log_own_iff hσ).mpr (guarded_of_checked hcheck (by decide +kernel))⟩

end Denia.Ingress
