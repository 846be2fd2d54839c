/-
  Denia.Ingress.RateLimit — the rate limit PER CLIENT of the requests that come through the
  ingress (`BucketLimiter::check` and `extract_client_ip`, `src/rate_limit.rs`;
  `upstream_request_filter`, `src/ingress/pingora/proxy.rs`).

  The proxy strips what the client says about itself and puts the address of its connection in
  `X-Forwarded-For`; the limiter trusts that header of a loopback peer.  Instants are numbers,
  and `duration_since` is the difference that saturates at zero.

  Main results: `clientKey_eq`, the key is the text of the client's address; `check_bucket`,
  what a check and its sweep leave of a bucket; `rateLimit_exact`.
-/
import Mathlib.Data.List.TakeWhile
import Denia.Ingress.Routes

namespace Denia.Ingress

open Verification

/-! ## §1. The client's address. -/

/-- The addresses, with `IpAddr::to_string`. -/
structure IpText (Ip : Type) where
  text : Ip → String
  injective : Function.Injective text
  ne_nil : ∀ ip, (text ip).toList ≠ []
  /-- Digits, dots and colons. -/
  plain : ∀ ip, ∀ c ∈ (text ip).toList, c ≠ ',' ∧ isWhitespace c = false
  isLoopback : Ip → Bool

/-- A header in lower case, and its value as far as it is text. -/
abbrev Headers := List (String × Option String)

/-- `STRIPPED_FORWARDING_HEADERS`. -/
def strippedForwardingHeaders : List String :=
  ["x-forwarded-for", "x-forwarded-host", "x-forwarded-proto", "x-forwarded-port", "x-real-ip",
    "forwarded"]

/-- `strip_inbound_forwarding_headers`. -/
def stripInboundForwardingHeaders (headers : Headers) : Headers :=
  headers.filter fun h => h.1 ∉ strippedForwardingHeaders

/-- `insert_header`: all values are replaced. -/
def insertHeader (headers : Headers) (name value : String) : Headers :=
  headers.filter (·.1 ≠ name) ++ [(name, some value)]

section
variable {Ip : Type} (addr : IpText Ip)

/-- `upstream_request_filter`, with `forwarded_for`. -/
def upstreamRequestFilter (client : Option Ip) (headers : Headers) : Headers :=
  match client with
  | none => stripInboundForwardingHeaders headers
  | some ip =>
    insertHeader (stripInboundForwardingHeaders headers) "x-forwarded-for" (addr.text ip)

/-- `forwarded.split(',').next().map(str::trim)`. -/
def firstForwarded (value : String) : List Char := trim (value.toList.takeWhile (· ≠ ','))

/-- `extract_client_ip`. -/
def extractClientIp (peer : Option Ip) (headers : Headers) : String :=
  match peer with
  | none => "anonymous"
  | some ip =>
    if addr.isLoopback ip then
      match (headers.lookup "x-forwarded-for").join with
      | some forwarded =>
        if firstForwarded forwarded ≠ [] then String.ofList (firstForwarded forwarded)
        else addr.text ip
      | none => addr.text ip
    else addr.text ip

theorem trim_eq_self {cs : List Char} (h : ∀ c ∈ cs, isWhitespace c = false) : trim cs = cs := by
  have hdrop : ∀ cs : List Char, (∀ c ∈ cs, isWhitespace c = false) →
      cs.dropWhile isWhitespace = cs := by
    intro cs hcs
    cases cs with
    | nil => rfl
    | cons => rw [List.dropWhile_cons_of_neg (by simp [hcs])]
  unfold trim
  rw [hdrop cs h, hdrop _ (by simpa using h), List.reverse_reverse]

/-- **The key is the address**: of a request through the ingress, whatever headers it came
with. -/
theorem clientKey_eq {peer : Ip} (hpeer : addr.isLoopback peer = true) (client : Ip)
    (headers : Headers) :
    extractClientIp addr (some peer) (upstreamRequestFilter addr (some client) headers)
      = addr.text client := by
  have hlookup : (upstreamRequestFilter addr (some client) headers).lookup "x-forwarded-for"
      = some (some (addr.text client)) := by
    have hnone : ((stripInboundForwardingHeaders headers).filter (·.1 ≠ "x-forwarded-for")).lookup
        "x-forwarded-for" = none := by
      rw [List.lookup_eq_none_iff]
      intro h hh
      exact bne_iff_ne.mpr (Ne.symm (of_decide_eq_true (List.mem_filter.mp hh).2))
    show (_ ++ [_]).lookup _ = _
    rw [List.lookup_append, hnone]
    rfl
  have hfirst : firstForwarded (addr.text client) = (addr.text client).toList := by
    unfold firstForwarded
    rw [List.takeWhile_eq_self_iff.mpr fun c hc => by simpa using (addr.plain client c hc).1]
    exact trim_eq_self fun c hc => (addr.plain client c hc).2
  simp [extractClientIp, hpeer, hlookup, hfirst, addr.ne_nil]

end

/-! ## §2. The buckets. -/

/-- `BucketState`. -/
structure BucketState where
  buckets : String → Option (List Nat)
  opsSinceSweep : Nat

/-- `SWEEP_INTERVAL`. -/
def sweepInterval : Nat := 1024

/-- The timestamps within the window. -/
def live (window now : Nat) (ts : List Nat) : List Nat := ts.filter fun t => now - t < window

/-- `entry(key).or_default()`. -/
def BucketState.bucket (s : BucketState) (key : String) : List Nat := (s.buckets key).getD []

/-- The periodic eviction of keys whose timestamps have all lapsed. -/
def BucketState.sweep (s : BucketState) (window now : Nat) : BucketState :=
  if sweepInterval ≤ s.opsSinceSweep + 1 then
    ⟨fun key => (s.buckets key).filter fun ts => live window now ts ≠ [], 0⟩
  else { s with opsSinceSweep := s.opsSinceSweep + 1 }

/-- `BucketLimiter::check`. -/
def BucketState.check (s : BucketState) (maxAttempts window : Nat) (key : String) (now : Nat) :
    Bool × BucketState :=
  let s := s.sweep window now
  let entry := live window now (s.bucket key)
  if maxAttempts ≤ entry.length then
    (false, { s with buckets := Function.update s.buckets key (some entry) })
  else (true, { s with buckets := Function.update s.buckets key (some (entry ++ [now])) })

section
variable {s : BucketState} {window now later : Nat}

theorem live_append (ts ts' : List Nat) :
    live window now (ts ++ ts') = live window now ts ++ live window now ts' :=
  List.filter_append ts ts'

theorem length_live (ts : List Nat) :
    (live window now ts).length = ts.countP fun t => now - t < window :=
  List.countP_eq_length_filter.symm

/-- What has lapsed stays so. -/
theorem live_live (h : now ≤ later) (ts : List Nat) :
    live window later (live window now ts) = live window later ts := by
  unfold live
  rw [List.filter_filter]
  refine List.filter_congr fun t _ => ?_
  by_cases ht : later - t < window
  · have : now - t < window := by omega
    simp [ht, this]
  · simp [ht]

theorem live_sweep (h : now ≤ later) (key : String) :
    live window later ((s.sweep window now).bucket key) = live window later (s.bucket key) := by
  unfold BucketState.sweep
  split
  · simp only [BucketState.bucket]
    cases s.buckets key with
    | none => rfl
    | some ts =>
      by_cases hts : live window now ts = []
      · have hlater : live window later ts = [] := by
          rw [← live_live h ts, hts]
          rfl
        rw [Option.getD_some, hlater, Option.filter, if_neg (by simp [hts])]
        rfl
      · simp [Option.filter, hts]
  · rfl

/-- **A check**, on the bucket of its key and on the others. -/
theorem check_bucket (s : BucketState) (maxAttempts window : Nat) (key key' : String)
    (h : now ≤ later) : ((s.check maxAttempts window key now).1 = true ↔
      (live window now (s.bucket key)).length < maxAttempts) ∧
    live window later ((s.check maxAttempts window key now).2.bucket key')
      = live window later (s.bucket key' ++
          if key' = key ∧ (s.check maxAttempts window key now).1 = true then [now] else []) := by
  -- the sweep drops only what no later check counts
  have hsweep : live window later ((s.sweep window now).bucket key')
      = live window later (s.bucket key') := live_sweep h key'
  have hnow : live window now ((s.sweep window now).bucket key) = live window now (s.bucket key) :=
    live_sweep le_rfl key
  have hbucket : ∀ ts n,
      (BucketState.mk (Function.update (s.sweep window now).buckets key (some ts)) n).bucket key'
        = if key' = key then ts else (s.sweep window now).bucket key' := by
    intro ts n
    unfold BucketState.bucket
    by_cases hkey : key' = key <;> simp [hkey]
  unfold BucketState.check
  simp only [hnow]
  by_cases hfull : maxAttempts ≤ (live window now (s.bucket key)).length
  · rw [if_pos hfull]
    refine ⟨by simpa using hfull, ?_⟩
    by_cases hkey : key' = key
    · rw [hbucket, if_pos hkey, live_live h, hkey]
      simp
    · simp [hbucket, hkey, hsweep]
  · rw [if_neg hfull]
    refine ⟨by simpa using hfull, ?_⟩
    by_cases hkey : key' = key
    · rw [hbucket, if_pos hkey, live_append, live_live h, hkey, live_append]
      simp
    · simp [hbucket, hkey, hsweep]

end

/-! ## §3. A client's requests. -/

/-- A request at the ingress. -/
structure Arrival (Ip : Type) where
  now : Nat
  client : Ip
  headers : Headers

/-- The requests in their order, and which are let through. -/
def serve {Ip : Type} (addr : IpText Ip) (peer : Ip) (maxAttempts window : Nat) :
    BucketState → List (Arrival Ip) → List (Ip × Bool)
  | _, [] => []
  | s, r :: rest =>
    let headers := upstreamRequestFilter addr (some r.client) r.headers
    let key := extractClientIp addr (some peer) headers
    let (passed, s) := s.check maxAttempts window key r.now
    (r.client, passed) :: serve addr peer maxAttempts window s rest

/-- The limit, on the times of one client's requests: each passes if fewer than `maxAttempts` of
those that passed before it are less than a window old. -/
def limited (maxAttempts window : Nat) : (passed : List Nat) → List Nat → List Bool
  | _, [] => []
  | passed, now :: rest =>
    if passed.countP (fun t => now - t < window) < maxAttempts then
      true :: limited maxAttempts window (passed ++ [now]) rest
    else false :: limited maxAttempts window passed rest

/-- **The rate limit is exact**: for requests at non-decreasing times, from whatever count of
the sweep on, what becomes of a client's requests is the limit on their own times. -/
theorem rateLimit_exact {Ip : Type} [DecidableEq Ip] (addr : IpText Ip) {peer : Ip}
    (hpeer : addr.isLoopback peer = true) (maxAttempts window ops : Nat) (rs : List (Arrival Ip))
    (hrs : rs.Pairwise fun r r' => r.now ≤ r'.now) (client : Ip) :
    ((serve addr peer maxAttempts window ⟨fun _ => none, ops⟩ rs).filter (·.1 = client)).map (·.2)
      = limited maxAttempts window [] ((rs.filter (·.client = client)).map (·.now)) := by
  have hrun : ∀ (rs : List (Arrival Ip)) (s : BucketState) (passed : List Nat),
      rs.Pairwise (fun r r' => r.now ≤ r'.now) →
      ∀ clock, (∀ r ∈ rs, clock ≤ r.now) → (∀ now, clock ≤ now →
        live window now (s.bucket (addr.text client)) = live window now passed) →
      ((serve addr peer maxAttempts window s rs).filter (·.1 = client)).map (·.2)
        = limited maxAttempts window passed ((rs.filter (·.client = client)).map (·.now)) := by
    -- `passed` may keep what the bucket has dropped: from `clock` on, the two agree on what is live
    intro rs
    induction rs with
    | nil => exact fun _ _ _ _ _ _ => rfl
    | cons r rest ih =>
      intro s passed hsorted clock hclock hlive
      obtain ⟨hfirst, hsorted⟩ := List.pairwise_cons.mp hsorted
      have hnow := hlive r.now (hclock r List.mem_cons_self)
      have hcheck (later) (h : r.now ≤ later) :=
        check_bucket s maxAttempts window (addr.text r.client) (addr.text client) h
      unfold serve
      simp only [clientKey_eq addr hpeer]
      have hrest (passed') := ih (s.check maxAttempts window (addr.text r.client) r.now).2 passed'
        hsorted r.now hfirst
      by_cases hclient : r.client = client
      · subst hclient
        have hpassed := (hcheck r.now le_rfl).1
        rw [hnow, length_live] at hpassed
        rw [List.filter_cons_of_pos (by simp), List.filter_cons_of_pos (by simp), List.map_cons,
          List.map_cons]
        unfold limited
        by_cases hpass : passed.countP (fun t => r.now - t < window) < maxAttempts
        · rw [if_pos hpass, hpassed.mpr hpass]
          refine congrArg _ (hrest (passed ++ [r.now]) fun later hlater => ?_)
          rw [(hcheck later hlater).2, if_pos ⟨rfl, hpassed.mpr hpass⟩, live_append, live_append,
            hlive later ((hclock r List.mem_cons_self).trans hlater)]
        · have hfull : (s.check maxAttempts window (addr.text r.client) r.now).1 = false :=
            Bool.eq_false_iff.mpr fun h => hpass (hpassed.mp h)
          rw [if_neg hpass, hfull]
          refine congrArg _ (hrest passed fun later hlater => ?_)
          rw [(hcheck later hlater).2, if_neg fun h => hpass (hpassed.mp h.2), List.append_nil]
          exact hlive later ((hclock r List.mem_cons_self).trans hlater)
      · have hne : addr.text client ≠ addr.text r.client := fun heq =>
          hclient (addr.injective heq).symm
        rw [List.filter_cons_of_neg (by simpa using hclient),
          List.filter_cons_of_neg (by simpa using hclient)]
        refine hrest passed fun later hlater => ?_
        rw [(hcheck later hlater).2, if_neg fun h => hne h.1, List.append_nil]
        exact hlive later ((hclock r List.mem_cons_self).trans hlater)
  exact hrun rs _ [] hrs 0 (fun _ _ => Nat.zero_le _) fun _ _ => rfl

/-- The loopback address and one client's. -/
def twoAddresses : IpText Bool where
  text ip := if ip then "127.0.0.1" else "203.0.113.9"
  injective := by
    unfold Function.Injective
    decide
  ne_nil := by decide
  plain := by
    intro ip
    have hall : (if ip then "127.0.0.1" else "203.0.113.9").toList.all
        (fun c => c ≠ ',' && !isWhitespace c) = true := by cases ip <;> decide
    simpa using hall
  isLoopback := id

/-- Four requests of a client, some in the names of others, and one from the loopback; the second
one sweeps, and the first has lapsed when the client's third comes. -/
def spoofed : List (Arrival Bool) :=
  [⟨0, false, [("x-forwarded-for", some "10.0.0.1")]⟩,
   ⟨5, false, [("x-forwarded-for", some "10.0.0.2"), ("forwarded", none)]⟩,
   ⟨30, true, []⟩,
   ⟨60, false, [("x-real-ip", some "127.0.0.1")]⟩,
   ⟨61, false, []⟩]

theorem rateLimit_exact_spoofed :
    ((serve twoAddresses true 1 60 ⟨fun _ => none, 1022⟩ spoofed).filter (·.1 = false)).map (·.2)
      = [true, false, true, false] :=
  (rateLimit_exact twoAddresses rfl 1 60 1022 spoofed (by decide) false).trans (by decide)

end Denia.Ingress
