/-
  Denia.Oci.Rules — the invariant under which the unpacker stays in its root, and the
  rules for the calls and checks it is made of.

  A QUEUED path is safe as long as nothing it passes through is a symlink when its turn
  comes, so the invariant names the places at which no symlink may stand (`N`) and the
  paths that may be queued (`Q`).  A check along a path adds places to `N`; a call keeps them.

  Main results: `Inv.traced`, a call inside the root; `createDirAllNoSymlink_triple` and its
  companions, what is checked, and what is queued, has a clear way.
-/
import Denia.Oci.Unpack

namespace Denia.Oci

open Lib Host

variable {root p ns : List String} {N N' : List String → Prop} {n child : String} {x : Comp}
  {c dir parent safePath target : List Comp} {Q Q' : List Comp → Prop} {h h0 : Host} {found : Node}
  {s : Unpacker} {kind : OpKind} {done : Host.Done} {call : Host → Host.Done}
  {step : List Comp → Unpack PUnit}

/-! ## §1. Safe paths. -/

/-- With no symlink at the places `N`, the path leads into the root. -/
structure Plain (root : List String) (N : List String → Prop) (c : List Comp) : Prop where
  up : Comp.up ∉ c.dropLast
  clear : ∀ q, q <+: names (followed c) → N q
  inside : root <+: endpoint c

theorem Plain.mono (hc : Plain root N c) (hN : ∀ q, N q → N' q) : Plain root N' c :=
  ⟨hc.up, fun q hq => hN q (hc.clear q hq), hc.inside⟩

theorem Plain.lresolve (hc : Plain root N c) (hN : ∀ q, N q → h.NoLink q) (p : List String)
    (hp : h.lresolve c = .ok p) : p = endpoint c :=
  lresolve_straight hc.up (fun q hq => hN q (hc.clear q hq)) hp

/-- A path without two dots under the root, whose directory is clear of symlinks. -/
structure Leaf (root : List String) (N : List String → Prop) (c : List Comp) : Prop where
  up : Comp.up ∉ c
  clear : ∀ q, q <+: (names c).dropLast → N q
  inside : root <+: names c

theorem names_dropLast_of_last (hlast : c.getLast? = some (.name n)) :
    names c.dropLast = (names c).dropLast := by
  have hsplit := congrArg names (getLast?_split hlast)
  rw [names_append] at hsplit
  have hone : names [Comp.name n] = [n] := rfl
  rw [hsplit, hone, List.dropLast_concat]

theorem up_not_mem_dropLast (hup : Comp.up ∉ c) : Comp.up ∉ c.dropLast :=
  fun hmem => hup (List.dropLast_subset _ hmem)

theorem endpoint_of_not_mem (hup : Comp.up ∉ c) : endpoint c = names c := by
  unfold endpoint
  split
  next hlast => exact absurd (List.mem_of_getLast? hlast) hup
  next => rfl

/-- The entry that a path names is at its names. -/
theorem Leaf.entryOf (hc : Leaf root N c) (hN : ∀ q, N q → h.NoLink q) (d : List String)
    (n : String) (hentry : h.entryOf c = .ok (d, n)) : d ++ [n] = names c := by
  refine entryOf_eq_names (up_not_mem_dropLast hc.up) ?_ hentry
  rw [names_dropLast_of_last (entryOf_eq_ok.mp hentry).1]
  exact fun q hq => hN q (hc.clear q hq)

/-- A path that ends in a name is followed in its directory only. -/
theorem Leaf.plain (hc : Leaf root N c) (hlast : c.getLast? = some (.name n)) : Plain root N c where
  up := up_not_mem_dropLast hc.up
  clear := by
    have hfollowed : followed c = c.dropLast := by simp only [followed, hlast]
    rw [hfollowed, names_dropLast_of_last hlast]
    exact hc.clear
  inside := by
    rw [endpoint_of_not_mem hc.up]
    exact hc.inside

/-- All the way clear, the last name included. -/
theorem Leaf.plain_of_clear (hc : Leaf root N c) (hall : ∀ q, q <+: names c → N q) :
    Plain root N c where
  up := up_not_mem_dropLast hc.up
  clear := by
    intro q hq
    refine hall q (hq.trans ?_)
    unfold followed
    split
    next n hlast =>
      rw [names_dropLast_of_last hlast]
      exact List.dropLast_prefix _
    next => exact List.prefix_rfl
  inside := by
    rw [endpoint_of_not_mem hc.up]
    exact hc.inside

theorem joinRoot_names (root : List String) (entry : PathText) :
    names (joinRoot root entry) = root ++ names entry.comps := by
  rw [joinRoot, names_append, names_ofNames]

/-! ## §2. The invariant. -/

/-- What holds in every state, also when a call has failed. -/
structure Inside (root : List String) (h0 : Host) (s : Unpacker) : Prop where
  ops : ∀ op ∈ s.ops, root <+: op.path
  outside : ∀ p, ¬ root <+: p → s.host.node p = h0.node p

/-- Between calls: no symlink stands at the places `N`, and only `Q` is queued. -/
structure Inv (root : List String) (h0 : Host) (Q : List Comp → Prop)
    (N : List String → Prop) (s : Unpacker) : Prop extends Inside root h0 s where
  noLink : ∀ q, N q → s.host.NoLink q
  queued : ∀ c ∈ s.queued, Q c

/-- Between entries. -/
structure Good (root : List String) (h0 : Host) (s : Unpacker) : Prop extends Inside root h0 s where
  straight : s.host.Straight root
  plain : ∀ c ∈ s.queued, Plain root s.host.NoLink c

/-- The places on the way to the root and to what is queued. -/
def onTheWay (root : List String) (s : Unpacker) (q : List String) : Prop :=
  q <+: root ∨ ∃ c ∈ s.queued, q <+: names (followed c)

theorem Inv.mono (hs : Inv root h0 Q N s) (hN : ∀ q, N' q → N q) (hQ : ∀ c, Q c → Q' c) :
    Inv root h0 Q' N' s where
  toInside := hs.toInside
  noLink q hq := hs.noLink q (hN q hq)
  queued c hc := hQ c (hs.queued c hc)

/-- The invariant of a single entry ends as the invariant between entries. -/
theorem Inv.good (hs : Inv root h0 Q N s) (hroot : ∀ q, q <+: root → N q)
    (hQ : ∀ c, Q c → Plain root N c) : Good root h0 s where
  toInside := hs.toInside
  straight q hq := hs.noLink q (hroot q hq)
  plain c hc := (hQ c (hs.queued c hc)).mono hs.noLink

/-- An entry starts with the places that are on the way of something. -/
theorem Good.inv (hs : Good root h0 s) : Inv root h0 (· ∈ s.queued) (onTheWay root s) s where
  toInside := hs.toInside
  noLink q hq := by
    rcases hq with hq | ⟨c, hc, hq⟩
    · exact hs.straight q hq
    · exact (hs.plain c hc).clear q hq
  queued _ hc := hc

theorem Good.plain_onTheWay (hs : Good root h0 s) (c : List Comp) (hc : c ∈ s.queued) :
    Plain root (onTheWay root s) c where
  up := (hs.plain c hc).up
  clear _ hq := .inr ⟨c, hc, hq⟩
  inside := (hs.plain c hc).inside

/-- **A call** that changes at most what is at and below a place inside. -/
theorem Inv.traced (hs : Inv root h0 Q N s) (hp : root <+: p) (hdone : Host.Effect p s.host done)
    (hat : N p → done.host.NoLink p) : Inv root h0 Q N (s.traced kind done) where
  ops op hop := by
    rcases List.mem_append.mp hop with hop | hop
    · exact hs.ops op hop
    · rw [Option.mem_toList, Option.map_eq_some_iff] at hop
      obtain ⟨q, hq, rfl⟩ := hop
      rwa [hdone.touched q hq]
  outside q hq := by
    have hpq : ¬ p <+: q := fun hpq => hq (hp.trans hpq)
    exact (hdone.frame q hpq).trans (hs.outside q hq)
  noLink q hq := by
    by_cases hqp : q = p
    · subst hqp
      exact hat hq
    · exact hdone.noLink q hqp (hs.noLink q hq)
  queued := hs.queued

/-- The same, for a call that makes no symlink. -/
theorem Inv.linkFree (hs : Inv root h0 Q N s) (hp : root <+: p)
    (hdone : Host.LinkFree p s.host done) : Inv root h0 Q N (s.traced kind done) :=
  hs.traced hp hdone.toEffect fun hN => hdone.noLinkAt (hs.noLink p hN)

/-! ## §3. Rules for the pieces of the program. -/

section Triples
variable {P E : Unpacker → Prop} {α β : Type} {R : β → Unpacker → Prop} {f : α → Unpack β}

theorem triple_readHost : Triple P readHost (fun h s => P s ∧ s.host = h) E :=
  fun _ hs => ⟨hs, rfl⟩

/-- Whatever the host is. -/
theorem triple_anyHost {f : Host → Unpack β} (hf : ∀ h, Triple P (f h) R E) :
    Triple P (readHost >>= f) R E :=
  triple_bind triple_readHost fun h => (hf h).conseq (fun _ hs => hs.1) fun _ _ hs => hs

theorem triple_perform {R : Except Errno Unit → Unpacker → Prop}
    (h : ∀ s, P s → R (call s.host).result (s.traced kind (call s.host))) :
    Triple P (perform kind call) R E :=
  fun s hs => h s hs

/-- The `?` operator, whichever error it throws. -/
theorem triple_question {ε : Type} {lift : Except ε α → Unpack α} {r : Except ε α}
    (hpure : ∀ a, lift (.ok a) = pure a) (hthrow : ∀ e, ∃ x, lift (.error e) = throw x)
    (herr : ∀ s, P s → E s) (hok : ∀ a, r = .ok a → Triple P (f a) R E) :
    Triple P (lift r >>= f) R E := by
  cases r with
  | ok a =>
    rw [hpure, pure_bind]
    exact hok a rfl
  | error e =>
    obtain ⟨x, hx⟩ := hthrow e
    rw [hx]
    exact triple_bind (Q := fun _ _ => False) (triple_throw herr) fun _ _ hs => hs.elim

theorem triple_orIo {r : Except Errno α} (herr : ∀ s, P s → E s)
    (hok : ∀ a, r = .ok a → Triple P (f a) R E) : Triple P (orIo r >>= f) R E :=
  triple_question (fun _ => rfl) (fun _ => ⟨_, rfl⟩) herr hok

theorem triple_orOther {r : Except String α} (herr : ∀ s, P s → E s)
    (hok : ∀ a, r = .ok a → Triple P (f a) R E) : Triple P (orOther r >>= f) R E :=
  triple_question (fun _ => rfl) (fun _ => ⟨_, rfl⟩) herr hok

theorem triple_orThrow {r : Except OciError α} (herr : ∀ s, P s → E s)
    (hok : ∀ a, r = .ok a → Triple P (f a) R E) : Triple P (orThrow r >>= f) R E :=
  triple_question (fun _ => rfl) (fun _ => ⟨_, rfl⟩) herr hok

theorem triple_ignore {m : Unpack (Except Errno Unit)} {T : Unpacker → Prop}
    (h : Triple P m (fun _ => T) E) : Triple P (ignore m) (fun _ => T) E :=
  triple_bind h fun _ => triple_pure fun _ hs => hs

end Triples

/-- From the invariant a piece of the program ends in `R`; if it fails, all is inside. -/
abbrev Leads (root : List String) (h0 : Host) (Q : List Comp → Prop) (N : List String → Prop)
    {α : Type} (m : Unpack α) (R : α → Unpacker → Prop) : Prop :=
  Triple (Inv root h0 Q N) m R (Inside root h0)

/-- ... ends in the invariant. -/
abbrev Keeps (root : List String) (h0 : Host) (Q : List Comp → Prop) (N : List String → Prop)
    {α : Type} (m : Unpack α) : Prop :=
  Leads root h0 Q N m fun _ => Inv root h0 Q N

theorem keeps_pure {α : Type} {a : α} : Keeps root h0 Q N (pure a) := triple_pure fun _ hs => hs

theorem leads_throw {α : Type} {R : α → Unpacker → Prop} {e : OciError} :
    Leads root h0 Q N (throw e) R :=
  triple_throw fun _ => Inv.toInside

section LinkFree
variable (hp : root <+: p)
  (hcall : ∀ h : Host, (∀ q, N q → h.NoLink q) → Host.LinkFree p h (call h))
include hp hcall

/-- A call that makes no symlink, its failure ignored or not. -/
theorem triple_linkFree : Keeps root h0 Q N (perform kind call) :=
  triple_perform fun s hs => hs.linkFree hp (hcall s.host hs.noLink)

/-- The same call, its failure thrown. -/
theorem keeps_call : Keeps root h0 Q N (perform kind call >>= orIo) :=
  triple_bind (triple_linkFree hp hcall) fun r => by
    cases r with
    | ok => exact keeps_pure
    | error => exact leads_throw

end LinkFree

/-! ## §4. Going down from the root. -/

theorem below_cons (ns : List String) (n : String) (rel : List String) :
    ((n :: rel).inits.drop 1).map (fun r => ofNames (ns ++ r)) =
      ofNames (ns ++ [n]) ::
        (rel.inits.drop 1).map (fun r => ofNames ((ns ++ [n]) ++ r)) := by
  cases rel with
  | nil => simp
  | cons => simp [Function.comp_def]

/-- A descent: each round clears the next place. -/
theorem triple_descend
    (hstep : ∀ (N : List String → Prop) ns n, root <+: ns → (∀ q, q <+: ns → N q) →
      Leads root h0 Q N (step (ofNames (ns ++ [n])))
        fun _ => Inv root h0 Q fun q => N q ∨ q = ns ++ [n])
    (rel : List String) (ns : List String) (hns : root <+: ns) (hclear : ∀ q, q <+: ns → N q) :
    Leads root h0 Q N (((rel.inits.drop 1).map fun r => ofNames (ns ++ r)).forM step)
      fun _ => Inv root h0 Q fun q => N q ∨ q <+: ns ++ rel := by
  induction rel generalizing ns N with
  | nil =>
    refine triple_pure fun s hs => hs.mono ?_ fun _ hc => hc
    intro q hq
    rcases hq with hq | hq
    · exact hq
    · exact hclear q (by simpa using hq)
  | cons n rel ih =>
    rw [below_cons]
    show Triple _ (step (ofNames (ns ++ [n])) >>= fun _ => List.forM _ step) _ _
    refine triple_bind (hstep N ns n hns hclear) fun _ => ?_
    have hclear' : ∀ q, q <+: ns ++ [n] → N q ∨ q = ns ++ [n] := by
      intro q hq
      rcases List.prefix_concat_iff.mp hq with hq | hq
      · exact .inr hq
      · exact .inl (hclear q hq)
    refine (ih (ns ++ [n]) (hns.trans (List.prefix_append ns [n])) hclear').post
      fun _ s hs => hs.mono ?_ fun _ hc => hc
    intro q hq
    rcases hq with hq | hq
    · exact .inl (.inl hq)
    · exact .inr (by rwa [← List.append_cons])

theorem ofNames_concat (ns : List String) (n : String) :
    ofNames (ns ++ [n]) = ofNames ns ++ [.name n] := by simp [ofNames]

/-- The path of a place below a clear one. -/
theorem leaf_ofNames (hns : root <+: ns) (hclear : ∀ q, q <+: ns → N q) :
    Leaf root N (ofNames (ns ++ [n])) where
  up := up_not_mem_ofNames _
  clear := by rwa [names_ofNames, List.dropLast_concat]
  inside := by
    rw [names_ofNames]
    exact hns.trans (List.prefix_append ns [n])

/-- What `lstat` finds at a place below a clear one is what is there. -/
theorem lstat_below (hns : root <+: ns) (hclear : ∀ q, q <+: ns → N q) (hN : ∀ q, N q → h.NoLink q)
    (hfound : h.lstat (ofNames (ns ++ [n])) = .ok found) : h.node (ns ++ [n]) = some found := by
  unfold lstat at hfound
  split at hfound
  next => cases hfound
  next p hp =>
    have hlast : (ofNames (ns ++ [n])).getLast? = some (.name n) := by
      rw [ofNames_concat, List.getLast?_concat]
    have hpath := ((leaf_ofNames hns hclear).plain hlast).lresolve hN p hp
    rw [endpoint_of_not_mem (up_not_mem_ofNames _), names_ofNames] at hpath
    rw [hpath] at hfound
    cases hnode : h.node (ns ++ [n]) with
    | none => simp [hnode] at hfound
    | some =>
      simp only [hnode, Option.map_some, Option.getD_some, Except.ok.injEq] at hfound
      rw [hfound]

theorem noLink_of_node (hnode : h.node p = some found) (hlink : found.isLink = false) :
    h.NoLink p := by
  intro n hn
  rw [hnode] at hn
  exact Option.some.inj hn ▸ hlink

theorem Inv.clearAt (hs : Inv root h0 Q N s) (hp : s.host.NoLink p) :
    Inv root h0 Q (fun q => N q ∨ q = p) s where
  toInside := hs.toInside
  noLink q hq := by
    rcases hq with hq | rfl
    · exact hs.noLink q hq
    · exact hp
  queued := hs.queued

theorem createStep_triple (N : List String → Prop) (ns : List String) (n : String)
    (hns : root <+: ns) (hclear : ∀ q, q <+: ns → N q) :
    Leads root h0 Q N (createStep (ofNames (ns ++ [n])))
      fun _ => Inv root h0 Q fun q => N q ∨ q = ns ++ [n] := by
  refine triple_bind triple_readHost fun h => ?_
  split
  next found hfound =>
    split
    next => exact triple_throw fun s hs => hs.1.toInside
    next hlink =>
      split
      next =>
        refine triple_pure ?_
        rintro s ⟨hs, rfl⟩
        exact hs.clearAt (noLink_of_node (lstat_below hns hclear hs.noLink hfound)
          (by simpa using hlink))
      next => exact triple_throw fun s hs => hs.1.toInside
  next =>
    -- nothing there: the new directory is no symlink
    have hleaf := leaf_ofNames (n := n) hns hclear
    refine triple_bind (triple_perform (R := fun r s =>
        Inv root h0 Q N s ∧ (r = .ok () → s.host.NoLink (ns ++ [n]))) ?_) fun r => ?_
    · rintro s ⟨hs, -⟩
      have hentry := hleaf.entryOf hs.noLink
      rw [names_ofNames] at hentry
      have hfree := mkdir_linkFree hentry
      refine ⟨hs.linkFree (hns.trans (List.prefix_append ns [n])) hfree, ?_⟩
      intro hok
      exact hfree.noLinkAt (mkdir_free hentry hok)
    · cases r with
      | ok => exact triple_pure fun s hs => hs.1.clearAt (hs.2 rfl)
      | error => exact triple_throw fun s hs => hs.1.toInside
  next => exact triple_throw fun s hs => hs.1.toInside

theorem ensureStep_triple (N : List String → Prop) (ns : List String) (n : String)
    (hns : root <+: ns) (hclear : ∀ q, q <+: ns → N q) :
    Leads root h0 Q N (ensureStep (ofNames (ns ++ [n])))
      fun _ => Inv root h0 Q fun q => N q ∨ q = ns ++ [n] := by
  refine triple_bind triple_readHost fun h =>
    triple_orIo (fun s hs => hs.1.toInside) fun found hfound => ?_
  split
  next => exact triple_throw fun s hs => hs.1.toInside
  next hlink =>
    split
    next =>
      refine triple_pure ?_
      rintro s ⟨hs, rfl⟩
      exact hs.clearAt (noLink_of_node (lstat_below hns hclear hs.noLink hfound)
        (by simpa using hlink))
    next => exact triple_throw fun s hs => hs.1.toInside

/-- The places a checked directory passes through. -/
theorem triple_below (hstep : ∀ (N : List String → Prop) ns n, root <+: ns → (∀ q, q <+: ns → N q) →
      Leads root h0 Q N (step (ofNames (ns ++ [n])))
        fun _ => Inv root h0 Q fun q => N q ∨ q = ns ++ [n]) (hroot : ∀ q, q <+: root → N q) :
    Leads root h0 Q N
      (if startsWith dir (ofNames root) then (below root dir).forM step
        else throw (traversalRejected dir))
      fun _ s => Inv root h0 Q (fun q => N q ∨ q <+: names dir) s ∧ root <+: names dir := by
  split
  next hstart =>
    have hnames := names_of_startsWith hstart
    refine (triple_descend hstep (names ((components dir).drop root.length)) root
      List.prefix_rfl hroot).post fun _ s hs => ?_
    rw [← hnames] at hs
    exact ⟨hs, hnames ▸ List.prefix_append root _⟩
  next => exact leads_throw

theorem createDirAllNoSymlink_triple (hroot : ∀ q, q <+: root → N q) :
    Leads root h0 Q N (createDirAllNoSymlink root dir)
      fun _ s => Inv root h0 Q (fun q => N q ∨ q <+: names dir) s ∧ root <+: names dir :=
  triple_below createStep_triple hroot

theorem ensureExistingDirNoSymlink_triple (hroot : ∀ q, q <+: root → N q) :
    Leads root h0 Q N (ensureExistingDirNoSymlink root dir)
      fun _ s => Inv root h0 Q (fun q => N q ∨ q <+: names dir) s ∧ root <+: names dir :=
  triple_below ensureStep_triple hroot

/-! ## §5. Removals. -/

theorem Plain.entryOf (hc : Plain root N c) (hN : ∀ q, N q → h.NoLink q) (d : List String)
    (n : String) (hentry : h.entryOf c = .ok (d, n)) : d ++ [n] = endpoint c :=
  hc.lresolve hN _ (lresolve_of_entryOf hentry)

theorem removeFound_triple (hc : Plain root N c) (found : Node) :
    Keeps root h0 Q N (removeFound found c) := by
  unfold removeFound
  split
  next =>
    refine triple_ignore (triple_linkFree hc.inside ?_)
    intro h hN
    exact removeDirAll_linkFree (hc.lresolve hN)
  next =>
    refine triple_ignore (triple_linkFree hc.inside ?_)
    intro h hN
    exact unlink_linkFree (hc.entryOf hN)

theorem names_concat (c : List Comp) (n : String) : names (c ++ [.name n]) = names c ++ [n] :=
  names_append c [.name n]

theorem leaf_child (hup : Comp.up ∉ parent) (hroot : root <+: names parent)
    (hclear : ∀ q, q <+: names parent → N q) : Leaf root N (parent ++ [.name child]) where
  up := by simp [hup]
  clear := by rwa [names_concat, List.dropLast_concat]
  inside := by
    rw [names_concat]
    exact hroot.trans (List.prefix_append _ _)

theorem removeChild_triple (hup : Comp.up ∉ parent) (hroot : root <+: names parent)
    (hclear : ∀ q, q <+: names parent → N q) :
    Keeps root h0 Q N (removeChild safePath (parent ++ [.name child])) := by
  unfold removeChild
  split
  next => exact keeps_pure
  next =>
    have hleaf : Leaf root N (parent ++ [.name child]) := leaf_child hup hroot hclear
    have hplain := hleaf.plain List.getLast?_concat
    exact triple_anyHost fun h => triple_orIo (fun _ => Inv.toInside) fun found _ =>
      removeFound_triple hplain found

theorem applyOpaqueMarker_triple (hup : Comp.up ∉ safePath) (hroot : ∀ q, q <+: root → N q) :
    Keeps root h0 Q N (applyOpaqueMarker root safePath) := by
  unfold applyOpaqueMarker
  split
  next => exact keeps_pure
  next parent hparent =>
    have hupParent := (parentPath_some hup hparent).2
    refine triple_anyHost fun h => ?_
    split
    next =>
      refine triple_bind (ensureExistingDirNoSymlink_triple hroot) fun _ => ?_
      refine Triple.assume fun hinside => ?_
      refine triple_orIo (fun _ => Inv.toInside) fun children _ => ?_
      refine (triple_forM fun child _ => removeChild_triple hupParent hinside
        fun q hq => .inr hq).post ?_
      exact fun _ s hs => hs.mono (fun q hq => .inl hq) fun _ hc => hc
    next => exact keeps_pure

/-! ## §6. Whiteouts are queued with a clear way. -/

/-- A queued target: it is under its parent, or is the parent, or is above it. -/
theorem plain_whiteout (hup : Comp.up ∉ parent) (hclear : ∀ q, q <+: names parent → N q)
    (hroot : root <+: names (parent ++ [x])) (habove : x = .up → root <+: (names parent).dropLast) :
    Plain root N (parent ++ [x]) where
  up := by rwa [List.dropLast_concat]
  clear := by
    intro q hq
    refine hclear q ?_
    cases x with
    | empty => simpa [followed, names] using hq
    | dot => simpa [followed, names] using hq
    | up => simpa [followed, names] using hq
    | name => simpa [followed] using hq
  inside := by
    cases x with
    | empty => simpa [endpoint] using hroot
    | dot => simpa [endpoint] using hroot
    | up => simpa [endpoint, names] using habove rfl
    | name => simpa [endpoint] using hroot

theorem lstat_ok_exists (hfound : (h.lstat (parent ++ [x])).isOk = true) :
    h.pathExists parent = true := by
  unfold lstat at hfound
  split at hfound
  next => cases hfound
  next p hp =>
    obtain ⟨q, hq⟩ := lresolve_append_ok hp
    rw [pathExists, hq]
    rfl

theorem Inv.good_push (hs : Inv root h0 Q N s) (hroot : ∀ q, q <+: root → N q)
    (hQ : ∀ c, Q c → Plain root N c) (htarget : Plain root N target) : Good root h0
      { s with pendingWhiteouts := s.pendingWhiteouts ++ [(target, safePath)] } := by
  have hpushed : Inv root h0 (fun c => Q c ∨ c = target) N
      { s with pendingWhiteouts := s.pendingWhiteouts ++ [(target, safePath)] } := by
    refine ⟨⟨hs.ops, hs.outside⟩, hs.noLink, ?_⟩
    intro c hc
    have hmem : c ∈ s.queued ∨ c = target := by
      simpa [Unpacker.queued, or_assoc] using hc
    rcases hmem with hmem | rfl
    · exact .inl (hs.queued c hmem)
    · exact .inr rfl
  refine hpushed.good hroot ?_
  rintro c (hc | rfl)
  · exact hQ c hc
  · exact htarget

theorem pushWhiteout_triple (hroot : ∀ q, q <+: root → N q) (hQ : ∀ c, Q c → Plain root N c)
    (htarget : startsWith target (ofNames root) = true → (h.lstat target).isOk = true →
      Plain root N target) :
    Leads root h0 Q N (pushWhiteout root h target safePath) fun _ => Good root h0 := by
  unfold pushWhiteout
  split
  next hqueue =>
    rw [Bool.and_eq_true] at hqueue
    exact triple_modify fun s hs => hs.good_push hroot hQ (htarget hqueue.1 hqueue.2)
  next => exact triple_pure fun s hs => hs.good hroot hQ

theorem queueWhiteout_triple {stripped : String} (hup : Comp.up ∉ safePath)
    (hroot : ∀ q, q <+: root → N q) (hQ : ∀ c, Q c → Plain root N c)
    (habove : Comp.ofSegment stripped = .up → root <+: (names safePath).dropLast.dropLast) :
    Leads root h0 Q N (queueWhiteout root safePath stripped) fun _ => Good root h0 := by
  unfold queueWhiteout
  split
  next => exact triple_pure fun s hs => hs.good hroot hQ
  next parent hparent =>
    obtain ⟨⟨n, -, hnames⟩, hupParent⟩ := parentPath_some hup hparent
    rw [hnames, List.dropLast_concat] at habove
    refine triple_anyHost fun h => ?_
    by_cases hexists : h.pathExists parent = true
    · -- the parent was checked: nothing on its way is a symlink
      rw [if_pos hexists]
      refine triple_bind ((ensureExistingDirNoSymlink_triple hroot).post fun _ s hs => hs.1)
        fun _ => pushWhiteout_triple ?_ ?_ ?_
      · exact fun q hq => .inl (hroot q hq)
      · exact fun c hc => (hQ c hc).mono fun q hq => .inl hq
      · intro hstart _
        have hinside := names_of_startsWith hstart
        exact plain_whiteout hupParent (fun q hq => .inr hq)
          (hinside ▸ List.prefix_append root _) habove
    · -- without its parent the target cannot be there
      rw [if_neg hexists]
      refine triple_bind keeps_pure fun _ => pushWhiteout_triple hroot hQ ?_
      intro _ hfound
      exact absurd (lstat_ok_exists hfound) hexists

end Denia.Oci
