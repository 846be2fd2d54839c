/-
  Denia.Ingress.Redirect — the answer of the `:80` listener to a plain request for a TLS host
  (`request_filter`, `request_host`, `request_path`, `src/ingress/pingora/proxy.rs`).

  The location is put together from the host, without port and in lower case, and from
  `request_path`, which is the path WITHOUT the query.

  Main result: `redirect_exact_iff` — where the location is the target that was asked for, and
  whose name it has.
-/
import Denia.Ingress.AccessLog
import Denia.Ingress.StoredHostnames

namespace Denia.Ingress

open Verification

/-! ## §1. The answer. -/

/-- The target of a request: a path (or the asterisk of `OPTIONS`) and a query. -/
structure Uri where
  path : String
  query : Option String
  pathOnly : '?' ∉ path.toList ∧ '#' ∉ path.toList

/-- `request_path`. -/
def requestPath (uri : Uri) : String := uri.path

/-- Status and location of the answer that ends `request_filter` on `:80`. -/
def redirectAnswer (cfg : ProxyConfig) (routes : RouteTable) (req : ProxyRequest) (uri : Uri) :
    Option (Nat × String) :=
  match requestFilter cfg routes { req with isHttp := true, path := requestPath uri } with
  | .redirect location => some (308, location)
  | _ => none

/-! ## §2. What is asked for, and where the answer leads. -/

/-- The name in another case, and a port or none. -/
def Spells (value name : String) : Prop :=
  ∃ spelled port, asciiLowercase spelled = name ∧ ':' ∉ port.toList ∧
    (value = spelled ∨ value = spelled ++ ":" ++ port)

/-- A path that is answered on port 80. -/
def isChallenge (path : String) : Bool :=
  acmeChallengePath.toList.isPrefixOf path.toList ||
    deniaChallengePath.toList.isPrefixOf path.toList

/-- The target as text. -/
def Uri.target (uri : Uri) : String :=
  uri.path ++ match uri.query with
    | some query => "?" ++ query
    | none => ""

/-- The name that a location leads to: all up to its path, query or fragment. -/
def locationName (location : String) : Option (List Char) :=
  ("https://".toList.isPrefixOf? location.toList).map
    (·.takeWhile fun c => c ≠ '/' && c ≠ '?' && c ≠ '#')

/-- A TLS route, or the control domain if it has TLS. -/
def TlsName (cfg : ProxyConfig) (routes : RouteTable) (name : String) : Prop :=
  cfg.controlDomain = some name ∧ cfg.controlTls = true ∨
    ∃ spec, routes.resolve name = some spec ∧ spec.tls = true

variable {cfg : ProxyConfig} {routes : RouteTable} {req : ProxyRequest} {uri : Uri}

/-- **When** the answer is a redirect, and to where. -/
theorem redirectAnswer_eq_some {answer : Nat × String} :
    redirectAnswer cfg routes req uri = some answer ↔
      isChallenge uri.path = false ∧
        cfg.controlTlsForHost req.host ((routes.resolve req.host).map (·.tls)) = some true ∧
        answer = (308, "https://" ++ req.host ++ uri.path) := by
  have hfilter : requestFilter cfg routes { req with isHttp := true, path := requestPath uri }
      = if isChallenge uri.path then .toControlBackend
        else if cfg.controlTlsForHost req.host ((routes.resolve req.host).map (·.tls)) = some true
          then .redirect ("https://" ++ req.host ++ uri.path)
        else .passthrough := rfl
  rw [redirectAnswer, hfilter]
  cases isChallenge uri.path with
  | true => simp
  | false =>
    by_cases htls :
      cfg.controlTlsForHost req.host ((routes.resolve req.host).map (·.tls)) = some true <;>
      simp [htls, eq_comm]

/-- The host of a request is the name, whatever the spelling. -/
theorem host_of_spells {h : Hostname} {value : String}
    (hvalue : req.hostHeader.or req.authority = some value) (hspells : Spells value h.name) :
    req.host = h.name := by
  obtain ⟨spelled, port, hlower, hport, hvalue'⟩ := hspells
  have hchar : ∀ c ∈ spelled.toList, HostChar c.toLower := by
    intro c hc
    refine h.hostChar ?_
    rw [← hlower, asciiLowercase, String.toList_ofList]
    exact List.mem_map_of_mem hc
  have hcolon : ':' ∉ spelled.toList := fun hc => absurd (hchar _ hc) (by unfold HostChar; decide)
  have hbracket : spelled.toList.head? ≠ some '[' := by
    intro hhead
    exact absurd (hchar _ (List.mem_of_mem_head? hhead)) (by unfold HostChar; decide)
  have hstrip : stripPort value = spelled := by
    rcases hvalue' with rfl | rfl
    · rw [stripPort, if_neg hbracket, if_neg hcolon]
    · have hhead : (spelled ++ ":" ++ port).toList.head? ≠ some '[' := by
        simp only [String.toList_append]
        cases hs : spelled.toList with
        | nil => simp
        | cons => simpa [hs] using hbracket
      rw [stripPort, if_neg hhead, if_pos (by simp)]
      -- From the right, the port is skipped up to the colon.
      have hskip : (spelled ++ ":" ++ port).toList.reverse.dropWhile (· ≠ ':')
          = ':' :: spelled.toList.reverse := by
        rw [String.toList_append, String.toList_append, List.reverse_append,
          List.dropWhile_append_of_pos fun c hc => ?_]
        · simp
        · simpa using fun (heq : c = ':') => hport (heq ▸ List.mem_reverse.mp hc)
      rw [hskip]
      simp
  have hhost : req.host = asciiLowercase (stripPort value) := by
    unfold ProxyRequest.host
    cases hheader : req.hostHeader <;> simp_all
  rw [hhost, hstrip, hlower]

/-- The name of a location is the host, if the path starts as one. -/
theorem locationName_iff {name : String} (hname : ∀ c ∈ name.toList, c ∉ ['/', '?', '#']) :
    locationName ("https://" ++ name ++ uri.path) = some name.toList ↔
      ∀ c ∈ uri.path.toList.head?, c = '/' := by
  have hrest : "https://".toList.isPrefixOf? ("https://" ++ name ++ uri.path).toList
      = some (name.toList ++ uri.path.toList) := by
    simp only [String.toList_append, List.append_assoc]
    rfl
  rw [locationName, hrest, Option.map_some, Option.some_inj,
    List.takeWhile_append_of_pos (by simpa [and_assoc] using hname), List.append_right_eq_self]
  cases hpath : uri.path.toList with
  | nil => simp
  | cons c =>
    have hc : c ≠ '?' ∧ c ≠ '#' := by
      constructor <;> rintro rfl
      · exact uri.pathOnly.1 (by simp [hpath])
      · exact uri.pathOnly.2 (by simp [hpath])
    simp [List.takeWhile_cons, hc]

/-- **The redirect keeps the target** for a TLS route exactly if there is no query, and if the
name is not that of a control domain without TLS.  Whatever the host, the location leads to a
TLS route or to the TLS control domain, exactly if what follows the name starts as a path. -/
theorem redirect_exact_iff {h : Hostname} {spec : RouteSpec} {value : String}
    (hroute : routes.byHost.lookup h.name = some spec) (htls : spec.tls = true)
    (hvalue : req.hostHeader.or req.authority = some value) (hspells : Spells value h.name)
    (hpath : isChallenge uri.path = false) :
    (redirectAnswer cfg routes req uri = some (308, "https://" ++ h.name ++ uri.target) ↔
      uri.query = none ∧ (cfg.controlDomain = some h.name → cfg.controlTls = true)) ∧
    ∀ (req : ProxyRequest) (uri : Uri) (answer : Nat × String),
      redirectAnswer cfg routes req uri = some answer →
        ∃ name, TlsName cfg routes name ∧ answer = (308, "https://" ++ name ++ uri.path) ∧
          ((∀ c ∈ name.toList, c ∉ ['/', '?', '#']) →
            (locationName answer.2 = some name.toList ↔ ∀ c ∈ uri.path.toList.head?, c = '/')) := by
  have hresolve : routes.resolve h.name = some spec := by
    rw [RouteTable.resolve, asciiLowercase_hostname, hroute]
  constructor
  -- the location has the path and not the query
  · have htext : "https://" ++ h.name ++ uri.target = "https://" ++ h.name ++ uri.path ↔
        uri.query = none := by
      cases hquery : uri.query with
      | none => simp [Uri.target, hquery]
      | some =>
        refine ⟨fun heq => ?_, nofun⟩
        have hlength := congrArg (·.toList.length) heq
        simp [Uri.target, hquery] at hlength
    have hcontrol : cfg.controlTlsForHost h.name (some true) = some true ↔
        (cfg.controlDomain = some h.name → cfg.controlTls = true) := by
      unfold ProxyConfig.controlTlsForHost ProxyConfig.isControlHost
      split <;> simp_all
    rw [redirectAnswer_eq_some, host_of_spells hvalue hspells, hresolve, Option.map_some, htls,
      hcontrol, Prod.mk.injEq, htext]
    simp [hpath, and_comm]
  · intro req uri answer hanswer
    obtain ⟨-, htls, rfl⟩ := redirectAnswer_eq_some.mp hanswer
    refine ⟨req.host, ?_, rfl, fun hname => locationName_iff hname⟩
    unfold ProxyConfig.controlTlsForHost ProxyConfig.isControlHost at htls
    split at htls
    next hcontrol => exact .inl ⟨by simpa using hcontrol, Option.some.inj htls⟩
    next => exact .inr (by simpa using htls)

/-- Route 1 serves `api.example.com` with TLS. -/
def tlsRoutes : RouteTable :=
  ⟨(∅ : AList fun _ : String => RouteSpec).insert "api.example.com"
    ⟨1, "api", ["api.example.com"], true⟩⟩

/-- A hostname with TLS. -/
def tlsHost : Hostname := ⟨"api.example.com", by decide⟩

/-- A GET for the dashboard, with the host in capitals and with a port. -/
def dashboardRequest : ProxyRequest :=
  ⟨true, some "API.example.com:80", none, "GET", "/dashboard", none, 0, 0, ""⟩

theorem redirect_exact_iff_plain :
    redirectAnswer ⟨none, false⟩ tlsRoutes dashboardRequest ⟨"/dashboard", none, by decide⟩
      = some (308, "https://api.example.com/dashboard") :=
  (redirect_exact_iff (h := tlsHost) rfl rfl rfl
    ⟨"API.example.com", "80", by decide, by decide, .inr rfl⟩ (by decide)).1.mpr ⟨rfl, nofun⟩

/-- The query is lost. -/
theorem redirect_drops_query :
    let uri : Uri := ⟨"/dashboard", some "x=1", by decide⟩
    redirectAnswer ⟨none, false⟩ tlsRoutes dashboardRequest uri
        = some (308, "https://api.example.com/dashboard") ∧
      "https://api.example.com/dashboard" ≠ "https://" ++ tlsHost.name ++ uri.target := by
  decide +kernel

end Denia.Ingress
