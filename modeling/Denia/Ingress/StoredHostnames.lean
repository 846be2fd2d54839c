/-
  Denia.Ingress.StoredHostnames — the two validators of hostnames side by side:
  `validate_hostname` (`src/verification/validation.rs`), which decides what is STORED, and
  `validate_domain` (`src/ingress/pingora/state.rs`), which decides what ROUTES.

  The second one asks for less of every byte and of every label.  It also asks for at most 253
  bytes in all, and the first one does not.

  Main results: `domainOk_hostname`, one hostname; `stored_hostname_routes_iff`, a snapshot;
  `stored_hostname_stops_all_routes`, one longer hostname.
-/
import Denia.Ingress.Routes
import Denia.Lib.Hoare
import Mathlib.Data.List.TakeWhile

namespace Denia

open Lib Verification

/-! ## §1. The characters of a hostname. -/

/-- A letter, a digit, a hyphen or a dot. -/
def HostChar (c : Char) : Prop := c.isAlphanum = true ∨ c = '-' ∨ c = '.'

variable {c : Char} {s : List Char}

theorem HostChar.range (h : HostChar c) : 44 < c.toNat ∧ c.toNat < 123 ∧ c.toNat ≠ 96 := by
  rcases h with h | rfl | rfl
  · delta Char.isAlphanum Char.isAlpha Char.isUpper Char.isLower Char.isDigit at h
    simp only [Bool.or_eq_true, Bool.and_eq_true, decide_eq_true_eq, ge_iff_le,
      UInt32.le_iff_toNat_le] at h
    have hnat : c.toNat = c.val.toNat := rfl
    have hA : 'A'.val.toNat = 65 := rfl
    have hZ : 'Z'.val.toNat = 90 := rfl
    have ha : 'a'.val.toNat = 97 := rfl
    have hz : 'z'.val.toNat = 122 := rfl
    have h0 : '0'.val.toNat = 48 := rfl
    have h9 : '9'.val.toNat = 57 := rfl
    omega
  · decide
  · decide

theorem HostChar.not_isWhitespace (h : HostChar c) : isWhitespace c = false := by
  have hrange := h.range
  unfold isWhitespace
  simp only [Bool.or_eq_false_iff, Bool.and_eq_false_iff, decide_eq_false_iff_not,
    beq_eq_false_iff_ne]
  omega

/-- What a checked name consists of. -/
theorem checked_labels (h : checkHostname s = .ok ()) : s ≠ [] ∧ (labels s).all labelOk = true := by
  unfold checkHostname at h
  repeat' split at h
  all_goals try cases h
  next hempty _ _ _ _ hall => exact ⟨fun hnil => hempty (by rw [hnil]; rfl), hall⟩

theorem hostChar_of_labelOk {l : List Char} (h : labelOk l = true) (hc : c ∈ l) : HostChar c := by
  unfold labelOk at h
  simp only [Bool.and_eq_true] at h
  have hchar := List.all_eq_true.mp h.2 c hc
  simp only [Bool.and_eq_true, Bool.or_eq_true, beq_iff_eq] at hchar
  rcases hchar.1 with halnum | hhyphen
  · exact .inl halnum
  · exact .inr (.inl hhyphen)

theorem Verification.Hostname.hostChar (h : Hostname) (hc : c ∈ h.name.toList) : HostChar c := by
  obtain ⟨-, hall⟩ := checked_labels h.checked
  rcases mem_labels hc with rfl | ⟨l, hl, hcl⟩
  · exact .inr (.inr rfl)
  · exact hostChar_of_labelOk (List.all_eq_true.mp hall l hl) hcl

/-! ## §2. Its ends. -/

/-- A dot at the end leaves an empty label, after another one. -/
theorem nil_mem_labels_concat (s : List Char) : [] ∈ (labels (s ++ ['.'])).tail := by
  induction s with
  | nil => exact List.mem_cons_self
  | cons c cs ih =>
    rw [List.cons_append, labels]
    split
    · exact List.mem_of_mem_tail ih
    · cases hrest : labels (cs ++ ['.']) with
      | nil =>
        simp [hrest] at ih
      | cons =>
        rwa [hrest] at ih

theorem not_nil_mem_labels (h : (labels s).all labelOk = true) : [] ∉ labels s := by
  intro hmem
  have hnil := List.all_eq_true.mp h [] hmem
  cases hnil

/-- A checked name neither starts nor ends with a dot. -/
theorem ends_of_labels (h : (labels s).all labelOk = true) :
    s.head? ≠ some '.' ∧ s.getLast? ≠ some '.' := by
  refine ⟨fun hhead => ?_, fun hlast => ?_⟩
  · cases s with
    | nil => cases hhead
    | cons =>
      cases hhead
      exact not_nil_mem_labels h List.mem_cons_self
  · obtain ⟨t, rfl⟩ := List.getLast?_eq_some_iff.mp hlast
    exact not_nil_mem_labels h (List.mem_of_mem_tail (nil_mem_labels_concat t))

theorem trim_eq_nil (h : trim s = []) : ∀ c ∈ s, isWhitespace c = true := by
  unfold trim at h
  rw [List.reverse_eq_nil_iff, List.dropWhile_eq_nil_iff] at h
  -- the first character that is kept would have to be a blank
  cases hkept : s.dropWhile isWhitespace with
  | nil => exact List.dropWhile_eq_nil_iff.mp hkept
  | cons c =>
    have hblank : isWhitespace c = true := h c (by rw [hkept]; simp)
    have hne : s.dropWhile isWhitespace ≠ [] := by rw [hkept]; nofun
    have hhead := List.head_dropWhile_not isWhitespace hne
    simp only [hkept, List.head_cons] at hhead
    simp [hblank] at hhead

/-! ## §3. A stored hostname as a domain. -/

/-- **A stored hostname passes the other checks**, all but the one of its length. -/
theorem domainOk_hostname (h : Hostname) :
    domainOk h.name.toList = decide (byteLength h.name.toList ≤ 253) := by
  obtain ⟨hne, hall⟩ := checked_labels h.checked
  -- every condition but the length follows from the labels
  obtain ⟨hhead, hlast⟩ := ends_of_labels hall
  have htrim : (trim h.name.toList).isEmpty = false := by
    rw [Bool.eq_false_iff]
    intro hempty
    obtain ⟨c, hc⟩ := List.exists_mem_of_ne_nil _ hne
    have hblank := trim_eq_nil (List.isEmpty_iff.mp hempty) c hc
    simp [(h.hostChar hc).not_isWhitespace] at hblank
  have hchars : h.name.toList.all
      (fun c => 32 < c.toNat && c.toNat < 127 && c != '\x60' && c != '*') = true := by
    refine List.all_eq_true.mpr fun c hc => ?_
    have hrange := (h.hostChar hc).range
    have hbacktick : c ≠ '\x60' := by
      rintro rfl
      exact hrange.2.2 rfl
    have hstar : c ≠ '*' := by
      rintro rfl
      exact absurd hrange.1 (by decide)
    simp only [Bool.and_eq_true, decide_eq_true_eq, bne_iff_ne, ne_eq]
    exact ⟨⟨⟨by omega, by omega⟩, hbacktick⟩, hstar⟩
  have hlabels : (labels h.name.toList).all
      (fun l => !l.isEmpty && decide (byteLength l ≤ 63)) = true := by
    refine List.all_eq_true.mpr fun l hl => ?_
    have hlabel := List.all_eq_true.mp hall l hl
    unfold labelOk at hlabel
    simp only [Bool.and_eq_true] at hlabel ⊢
    exact hlabel.1.1
  have hstart : (h.name.toList.head? != some '.') = true := bne_iff_ne.mpr hhead
  have hend : (h.name.toList.getLast? != some '.') = true := bne_iff_ne.mpr hlast
  unfold domainOk
  rw [htrim, hchars, hlabels, hstart, hend]
  simp only [Bool.not_false, Bool.true_and, Bool.and_true]

theorem validateDomain_hostname (h : Hostname) :
    validateDomain h.name = .ok h.name ↔ byteLength h.name.toList ≤ 253 := by
  unfold validateDomain
  rw [domainOk_hostname, asciiLowercase_hostname]
  by_cases hlength : byteLength h.name.toList ≤ 253
  · simp [hlength]
  · simp [hlength]

theorem validateHostname_ok {s : String} {h : Hostname} (hs : validateHostname s = .ok h) :
    h.name.toList = trim s.toList := by
  unfold validateHostname at hs
  split at hs <;> cases hs
  exact String.toList_ofList

/-! ## §4. Snapshots. -/

/-- A snapshot of stored services: each has a name, and its domains are stored hostnames. -/
def StoredSpecs (specs : List RouteSpec) : Prop :=
  ∀ spec ∈ specs, trim spec.serviceName.toList ≠ [] ∧
    ∀ domain ∈ spec.domains, ∃ h : Hostname, h.name = domain

/-- All hostnames are short enough. -/
def ShortSpecs (specs : List RouteSpec) : Prop :=
  ∀ spec ∈ specs, ∀ domain ∈ spec.domains, byteLength domain.toList ≤ 253

theorem routable_stored {spec : RouteSpec} (hname : trim spec.serviceName.toList ≠ [])
    (hdomains : ∀ domain ∈ spec.domains, ∃ h : Hostname, h.name = domain) :
    spec.Routable ↔ ∀ domain ∈ spec.domains, byteLength domain.toList ≤ 253 := by
  have hdomain : ∀ domain ∈ spec.domains,
      (domainOk domain.toList = true ↔ byteLength domain.toList ≤ 253) := by
    intro domain hmem
    obtain ⟨h, rfl⟩ := hdomains domain hmem
    rw [domainOk_hostname, decide_eq_true_eq]
  constructor
  · rintro (hnil | ⟨-, hok⟩) domain hmem
    · simp [hnil] at hmem
    · exact (hdomain domain hmem).mp (hok domain hmem)
  · intro hshort
    exact .inr ⟨hname, fun domain hmem => (hdomain domain hmem).mpr (hshort domain hmem)⟩

theorem upsertAll_iff {specs : List RouteSpec} (hstored : StoredSpecs specs) (t : RouteTable) :
    (∃ table, upsertAll specs t = .ok table) ↔ ShortSpecs specs := by
  rw [upsertAll_ok_iff]
  exact forall₂_congr fun spec hspec => routable_stored (hstored spec hspec).1
    (hstored spec hspec).2

/-- **What is stored routes, up to 253 bytes.**  An input that `validate_hostname` accepts is
accepted unchanged by `validate_domain` exactly if it has at most 253 bytes; and the route
table of a snapshot of stored services can be built exactly if this holds of all their
hostnames. -/
theorem stored_hostname_routes_iff (s : String) (snapshot : RouteSnapshot)
    (hstored : StoredSpecs (snapshot.entries.map (·.2))) :
    ((∀ h, validateHostname s = .ok h → validateDomain h.name = .ok h.name) ↔
        (checkHostname (trim s.toList) = .ok () → byteLength (trim s.toList) ≤ 253)) ∧
      ((∃ table, routeTableFromSnapshot snapshot = .ok table) ↔
        ShortSpecs (snapshot.entries.map (·.2))) := by
  refine ⟨⟨fun hroutes hcheck => ?_, fun hshort h hs => ?_⟩, upsertAll_iff hstored _⟩
  · have hex : ∃ h, validateHostname s = .ok h := by
      unfold validateHostname
      split
      next e he =>
        simp [hcheck] at he
      next => exact ⟨_, rfl⟩
    obtain ⟨h, hs⟩ := hex
    rw [← validateHostname_ok hs]
    exact (validateDomain_hostname h).mp (hroutes h hs)
  · refine (validateDomain_hostname h).mpr ?_
    rw [validateHostname_ok hs]
    refine hshort ?_
    rw [← validateHostname_ok hs]
    exact h.checked

/-! ## §5. A hostname of 257 bytes. -/

/-- Four labels of 63 letters and one of one. -/
def longName : List Char :=
  let label := List.replicate 63 'a'
  label ++ '.' :: label ++ '.' :: label ++ '.' :: label ++ ['.', 'a']

/-- The hostname of that name. -/
def longHostname : Hostname :=
  ⟨String.ofList longName, by rw [String.toList_ofList]; decide +kernel⟩

/-- A route at one domain. -/
def webRoute (id : Uuid) (domain : String) : RouteSpec := ⟨id, "web", [domain], false⟩

/-- Another service beside it. -/
def twoRoutes (domain : String) : RouteSnapshot :=
  ((∅ : RouteSnapshot).insert 1 (webRoute 1 "web.example.com")).insert 2
    (webRoute 2 domain)

/-- **One hostname stops all routes**: it is stored, no domain to the router, and with it the
table of another service cannot be built either. -/
theorem stored_hostname_stops_all_routes : (∃ h, validateHostname (String.ofList longName) = .ok h ∧
      validateDomain h.name = .error (.invalidDomain h.name)) ∧
    (∃ table, routeTableFromSnapshot (twoRoutes "api.example.com") = .ok table) ∧
    routeTableFromSnapshot (twoRoutes (String.ofList longName))
      = .error (.invalidDomain (String.ofList longName)) := by
  refine ⟨⟨longHostname, ?_, ?_⟩, ?_, ?_⟩
  · decide +kernel
  · decide +kernel
  · have hnone : failure (routeTableFromSnapshot (twoRoutes "api.example.com")) = none := by
      decide +kernel
    exact failure_eq_none.mp hnone
  · have herror : failure (routeTableFromSnapshot (twoRoutes (String.ofList longName)))
        = some (.invalidDomain (String.ofList longName)) := by
      decide +kernel
    exact failure_eq_some.mp herror

theorem stored_hostname_routes_short :
    (∀ h, validateHostname " web.example.com" = .ok h → validateDomain h.name = .ok h.name) ∧
      ∃ table, routeTableFromSnapshot (twoRoutes "api.example.com") = .ok table := by
  have hstored : StoredSpecs ((twoRoutes "api.example.com").entries.map (·.2)) := by
    intro spec hspec
    have hspec : spec ∈ [webRoute 2 "api.example.com", webRoute 1 "web.example.com"] := hspec
    simp only [List.mem_cons, List.not_mem_nil, or_false] at hspec
    rcases hspec with rfl | rfl
    · refine ⟨by decide +kernel, fun domain hdomain => ?_⟩
      exact ⟨⟨"api.example.com", by decide +kernel⟩, (List.mem_singleton.mp hdomain).symm⟩
    · refine ⟨by decide +kernel, fun domain hdomain => ?_⟩
      exact ⟨⟨"web.example.com", by decide +kernel⟩, (List.mem_singleton.mp hdomain).symm⟩
  obtain ⟨hroutes, htable⟩ := stored_hostname_routes_iff " web.example.com" _ hstored
  refine ⟨hroutes.mpr fun _ => by decide +kernel, htable.mpr ?_⟩
  have hshort : ∀ spec ∈ (twoRoutes "api.example.com").entries.map (·.2),
      ∀ domain ∈ spec.domains, byteLength domain.toList ≤ 253 := by
    decide +kernel
  exact hshort

end Denia
