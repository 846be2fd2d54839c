/-
  Denia.Oci.Confined — what `unpack` touches lies in the rootfs directory.

  The checks of an entry and the calls made for it are close together; the queued calls
  are made after all later entries of the layer.  Only a symlink entry can put a symlink
  on the way of a queued path, so that is what the condition on a run is about.

  Main results: `applyEntry_good`, one entry; `unpack_confined`, every traced call of a run;
  `unpack_escapes`.
-/
import Denia.Oci.Rules

namespace Denia.Oci

open Lib Host

variable {root ns : List String} {h0 : Host} {c : List Comp} {s : Unpacker}

section
variable {Q : List Comp → Prop} {N : List String → Prop}

/-! ## §1. Entries. -/

variable {safePath : List Comp}

theorem createParents_triple (hup : Comp.up ∉ safePath) (hroot : ∀ q, q <+: root → N q) :
    Leads root h0 Q N (createParents root safePath) fun _ s =>
      Inv root h0 Q (fun q => N q ∨ q <+: (names safePath).dropLast) s ∧
        (names safePath ≠ [] → root <+: (names safePath).dropLast) := by
  unfold createParents
  split
  next hparent =>
    have hnil := parentPath_none hparent
    refine triple_pure fun s hs => ⟨hs.mono ?_ fun _ hc => hc, fun hne => absurd hnil hne⟩
    intro q hq
    rcases hq with hq | hq
    · exact hq
    · rw [hnil] at hq
      exact hroot q (List.prefix_nil.mp hq ▸ List.nil_prefix)
  next parent hparent =>
    obtain ⟨⟨n, -, hnames⟩, -⟩ := parentPath_some hup hparent
    rw [hnames, List.dropLast_concat]
    exact (createDirAllNoSymlink_triple hroot).post fun _ s hs => ⟨hs.1, fun _ => hs.2⟩

theorem leaf_safePath (hup : Comp.up ∉ safePath) (hinside : root <+: names safePath) :
    Leaf root (fun q => N q ∨ q <+: (names safePath).dropLast) safePath :=
  ⟨hup, fun _ hq => .inr hq, hinside⟩

theorem chownPath_triple (hc : Plain root N c) (uid gid : Nat) :
    Keeps root h0 Q N (chownPath c uid gid) :=
  keeps_call hc.inside fun _ hN => lchown_linkFree (hc.lresolve hN)

theorem preservePathOwner_triple (hc : Plain root N c) (cap : Bool) (entry : Entry) :
    Keeps root h0 Q N (preservePathOwner cap c entry) := by
  unfold preservePathOwner
  split
  next =>
    refine triple_orThrow (fun _ => Inv.toInside) fun owner _ => ?_
    split
    next => exact keeps_pure
    next => exact chownPath_triple hc _ _
  next => exact keeps_pure

theorem setMode_triple (hup : Comp.up ∉ c) (hinside : root <+: names c)
    (hall : ∀ q, q <+: names c → N q) (entry : Entry) : Keeps root h0 Q N (setMode c entry) := by
  refine triple_orOther (fun _ => Inv.toInside) fun mode _ => ?_
  split
  next => exact keeps_pure
  next =>
    refine triple_ignore (triple_linkFree hinside fun h hN => chmod_linkFree ?_)
    intro p hp
    exact resolve_eq_names hup (fun q hq => hN q (hall q hq)) hp

theorem Inv.good_pushOwner {uid gid : Nat} (hs : Inv root h0 Q N s) :
    Inv root h0 (fun q => Q q ∨ q = c) N
      { s with pendingDirOwners := s.pendingDirOwners ++ [(c, uid, gid)] } := by
  refine ⟨⟨hs.ops, hs.outside⟩, hs.noLink, ?_⟩
  intro q hq
  have hmem : q ∈ s.queued ∨ q = c := by
    simp only [Unpacker.queued, List.map_append, List.map_cons, List.map_nil,
      List.mem_append, List.mem_singleton] at hq ⊢
    tauto
  rcases hmem with hmem | rfl
  · exact .inl (hs.queued q hmem)
  · exact .inr rfl

theorem makeDirectory_triple (hroot : ∀ q, q <+: root → N q) (entry : Entry) :
    Leads root h0 Q N (makeDirectory root c entry)
      fun _ => Inv root h0 (fun q => Q q ∨ q = c) fun q => N q ∨ q <+: names c := by
  refine triple_bind ((createDirAllNoSymlink_triple hroot).post fun _ s hs => hs.1) fun _ => ?_
  refine triple_orThrow (fun _ => Inv.toInside) fun owner _ => ?_
  split
  next => exact triple_pure fun s hs => hs.mono (fun _ hq => hq) fun _ hq => .inl hq
  next uid gid => exact triple_modify fun s hs => hs.good_pushOwner

theorem clearDirectory_triple (hc : Plain root N c) : Keeps root h0 Q N (clearDirectory c) := by
  refine triple_anyHost fun h => ?_
  split
  next => exact keeps_pure
  next found hfound =>
    split
    next => exact keeps_call hc.inside fun _ hN => removeDirAll_linkFree (hc.lresolve hN)
    next => exact keeps_pure

theorem eq_or_prefix_dropLast {q : List String} (hq : q <+: ns) : q = ns ∨ q <+: ns.dropLast := by
  obtain ⟨rest, rfl⟩ := hq
  by_cases hrest : rest = []
  · exact .inl (by rw [hrest, List.append_nil])
  · rw [List.dropLast_append_of_ne_nil hrest]
    exact .inr (List.prefix_append q _)

/-- A place is not on the way to its own directory. -/
theorem not_prefix_dropLast (hne : ns ≠ []) : ¬ ns <+: ns.dropLast := by
  intro hpre
  have hlen := hpre.length_le
  have hpos := List.length_pos_iff.mpr hne
  rw [List.length_dropLast] at hlen
  omega

/-- **A symlink entry.**  It may not stand on the way of anything queued; and a path that
ends in a slash or a dot may not lead through a symlink that is there. -/
theorem makeSymlink_triple (cap : Bool) (entry : Entry) (hup : Comp.up ∉ c)
    (hinside : root <+: names c) (hroot : ∀ q, q <+: root → N q)
    (hway : (∃ n, c.getLast? = some (.name n)) → root <+: (names c).dropLast → ¬ N (names c))
    (hleaf : (∀ n, c.getLast? ≠ some (.name n)) → N (names c)) :
    Keeps root h0 Q N (makeSymlink root cap c entry) := by
  refine triple_orOther (fun _ => Inv.toInside) fun link _ => ?_
  split
  next => exact leads_throw
  next target =>
    refine triple_anyHost fun h => triple_orThrow (fun _ => Inv.toInside) fun _ _ => ?_
    refine triple_bind (createParents_triple hup hroot) fun _ => ?_
    refine Triple.assume fun hstrict => ?_
    have hpath := leaf_safePath (N := N) hup hinside
    -- where the path leads, by what it ends in
    have hplain : Plain root (fun q => N q ∨ q <+: (names c).dropLast) c := by
      by_cases hlast : ∃ n, c.getLast? = some (.name n)
      · obtain ⟨n, hn⟩ := hlast
        exact hpath.plain hn
      · have htrailing : ∀ n, c.getLast? ≠ some (.name n) := fun n hn => hlast ⟨n, hn⟩
        refine hpath.plain_of_clear ?_
        intro q hq
        rcases eq_or_prefix_dropLast hq with rfl | hq
        · exact .inl (hleaf htrailing)
        · exact .inr hq
    refine triple_bind (triple_ignore (triple_linkFree hinside fun h hN =>
      unlink_linkFree (hpath.entryOf hN))) fun _ => ?_
    refine triple_bind (clearDirectory_triple hplain) fun _ => ?_
    by_cases hlast : ∃ n, c.getLast? = some (.name n)
    · obtain ⟨n, hn⟩ := hlast
      have hne : names c ≠ [] := by
        rw [getLast?_split hn, names_concat]
        simp
      -- the new symlink stands at none of the places that must be clear
      have hfree : ¬ (N (names c) ∨ names c <+: (names c).dropLast) := by
        rintro (hN | hpre)
        · exact hway ⟨n, hn⟩ (hstrict hne) hN
        · exact not_prefix_dropLast hne hpre
      refine triple_bind (triple_perform (R := fun _ => Inv root h0 Q fun q =>
        N q ∨ q <+: (names c).dropLast) ?_) fun r => ?_
      · intro s hs
        exact hs.traced hinside (symlink_effect (hpath.entryOf hs.noLink))
          fun hN => absurd hN hfree
      refine triple_orIo (fun _ => Inv.toInside) fun _ _ => ?_
      refine (preservePathOwner_triple hplain cap entry).post ?_
      exact fun _ s hs => hs.mono (fun _ hq => .inl hq) fun _ hq => hq
    · -- nothing can be linked at such a path
      have htrailing : ∀ n, c.getLast? ≠ some (.name n) := fun n hn => hlast ⟨n, hn⟩
      refine triple_bind (triple_perform (R := fun r s => Inside root h0 s ∧ r ≠ .ok ()) ?_)
        fun r => ?_
      · intro s hs
        have hnone : ∀ d n, s.host.entryOf c = .ok (d, n) → d ++ [n] = names c :=
          hpath.entryOf hs.noLink
        refine ⟨?_, symlink_trailing htrailing⟩
        have hdone : Inv root h0 Q (fun _ => False) s :=
          hs.mono (fun _ hq => hq.elim) fun _ hq => hq
        exact (hdone.traced hinside (symlink_effect hnone) fun hN => hN.elim).toInside
      exact triple_orIo (fun s hs => hs.1) fun _ hr s hs => absurd hr hs.2

theorem unlinkStale_triple (hc : Leaf root N c) :
    Leads root h0 Q N (unlinkStale c) fun _ s => Inv root h0 Q N s ∧
      ∀ d n, s.host.entryOf c = .ok (d, n) → s.host.NoLink (d ++ [n]) := by
  refine triple_bind triple_readHost fun h => ?_
  split
  next e hfound =>
    refine triple_pure ?_
    rintro s ⟨hs, rfl⟩
    refine ⟨hs, fun d n hentry node hnode => ?_⟩
    rw [lstat_of_entryOf hentry, hnode] at hfound
    cases hfound
  next found hfound =>
    split
    next hdir =>
      refine triple_pure ?_
      rintro s ⟨hs, rfl⟩
      refine ⟨hs, fun d n hentry node hnode => ?_⟩
      rw [lstat_of_entryOf hentry, hnode] at hfound
      obtain rfl : node = found := Except.ok.inj hfound
      have hkind : node.kind = .dir := of_decide_eq_true hdir
      simp [Node.isLink, hkind]
    next hdir =>
      -- neither a directory nor, afterwards, anything else
      refine triple_bind (triple_perform (R := fun _ s => Inv root h0 Q N s ∧
        ∀ d n, s.host.entryOf c = .ok (d, n) → s.host.NoLink (d ++ [n])) ?_)
        fun _ => triple_pure fun s hs => hs
      rintro s ⟨hs, rfl⟩
      have hafter : Inv root h0 Q N (s.traced .removeFile (s.host.unlink c)) :=
        hs.linkFree hc.inside (unlink_linkFree (hc.entryOf hs.noLink))
      refine ⟨hafter, fun d n hentry => ?_⟩
      have hplace := hc.entryOf hafter.noLink d n hentry
      cases hbefore : s.host.entryOf c with
      | error =>
        have hsame : (s.host.unlink c).host = s.host := by
          simp only [unlink, hbefore]
          rfl
        have hentry' : (s.host.unlink c).host.entryOf c = .ok (d, n) := hentry
        rw [hsame, hbefore] at hentry'
        cases hentry'
      | ok entry =>
        obtain ⟨d', n'⟩ := entry
        have hplace' := hc.entryOf hs.noLink d' n' hbefore
        have hnotDir : s.host.isDir (d' ++ [n']) = false := by
          rw [lstat_of_entryOf hbefore] at hfound
          cases hnode : s.host.node (d' ++ [n']) with
          | none => simp [hnode] at hfound
          | some node =>
            rw [hnode] at hfound
            obtain rfl : node = found := Except.ok.inj hfound
            simpa [isDir, hnode] using hdir
        have hgone := unlink_gone hbefore hnotDir
        intro node hnode
        have hnode' : (s.host.unlink c).host.node (d ++ [n]) = some node := hnode
        rw [hplace, ← hplace', hgone] at hnode'
        cases hnode'

/-- A counter goes up, and the layer is refused when it is over its limit. -/
theorem counter_triple {count : Unpacker → Unpacker} {beyond : Unpacker → Prop}
    [DecidablePred beyond] {error : Unpacker → OciError}
    (hcount : ∀ s, Inv root h0 Q N s → Inv root h0 Q N (count s)) :
    Keeps root h0 Q N (show Unpack PUnit from do
      modify count
      let s ← get
      if beyond s then throw (error s) else pure ⟨⟩) := by
  refine triple_bind (triple_modify (R := fun _ => Inv root h0 Q N) hcount) fun _ => ?_
  refine triple_bind (triple_get (R := fun _ => Inv root h0 Q N) fun s hs => hs) fun s => ?_
  split
  next => exact leads_throw
  next => exact keeps_pure

theorem countBytes_triple (written : Nat) : Keeps root h0 Q N (countBytes written) :=
  counter_triple fun _ hs => ⟨⟨hs.ops, hs.outside⟩, hs.noLink, hs.queued⟩

theorem countEntry_triple : Keeps root h0 Q N countEntry :=
  counter_triple fun _ hs => ⟨⟨hs.ops, hs.outside⟩, hs.noLink, hs.queued⟩

/-- A file is written where its path says, and is no symlink. -/
theorem writeEntry_triple (hup : Comp.up ∉ c) (hinside : root <+: names c)
    (hroot : ∀ q, q <+: root → N q) (entry : Entry) : Leads root h0 Q N (writeEntry root c entry)
      fun _ => Inv root h0 Q fun q => N q ∨ q <+: names c := by
  refine triple_orOther (fun _ => Inv.toInside) fun entrySize _ => ?_
  split
  next => exact leads_throw
  next =>
    refine triple_bind ((createParents_triple hup hroot).post fun _ s hs => hs.1) fun _ => ?_
    have hpath := leaf_safePath (N := N) hup hinside
    refine triple_bind (unlinkStale_triple hpath) fun _ => ?_
    refine triple_bind (triple_perform (R := fun r s =>
      Inv root h0 Q (fun q => N q ∨ q <+: (names c).dropLast) s ∧
        (r = .ok () → s.host.NoLink (names c))) ?_) fun r => ?_
    · rintro s ⟨hs, hnolink⟩
      have hfree : Host.LinkFree (names c) s.host (s.host.writeFile c entry.data) :=
        writeFile_linkFree (hpath.entryOf hs.noLink) hnolink
      refine ⟨hs.linkFree hinside hfree, fun hok => ?_⟩
      obtain ⟨d, n, hentry⟩ := writeFile_ok_entryOf hnolink hok
      have hplace := hpath.entryOf hs.noLink d n hentry
      exact hfree.noLinkAt (hplace ▸ hnolink d n hentry)
    refine triple_orIo (fun s hs => hs.1.toInside) fun _ hr => ?_
    have hrest : Keeps root h0 Q (fun q => N q ∨ q <+: names c)
        (orOther (copied entry) >>= countBytes) :=
      triple_orOther (fun _ => Inv.toInside) fun written _ => countBytes_triple written
    refine hrest.conseq (fun s hs => (hs.1.clearAt (hs.2 hr)).mono ?_ fun _ hq => hq)
      fun _ s hs => hs
    intro q hq
    rcases hq with hq | hq
    · exact .inl (.inl hq)
    · rcases eq_or_prefix_dropLast hq with hq | hq
      · exact .inr hq
      · exact .inl (.inr hq)

end

/-! ## §2. One entry. -/

/-- A symlink entry at `c` leaves the way of everything queued alone; and where its path ends
in a slash or a dot, it does not lead through a symlink. -/
structure LinkSafe (root : List String) (s : Unpacker) (c : List Comp) : Prop where
  way : ∀ q ∈ s.queued, ¬ names c <+: names (followed q)
  leaf : (∀ n, c.getLast? ≠ some (.name n)) → s.host.NoLink (names c)

/-- What an entry must meet in the state it is applied to.  `.wh...` in the top directory is
the whiteout of the directory above the root. -/
def entrySafe (root : List String) (s : Unpacker) : Except String Entry → Prop
  | .error _ => True
  | .ok entry =>
      (entry.entryType = .symlink → LinkSafe root s (joinRoot root entry.path)) ∧
        names entry.path.comps ≠ [".wh..."]

theorem safeJoin_ok {h : Host} {entry : PathText} (hjoin : safeJoin h root entry = .ok c) :
    c = joinRoot root entry ∧ Comp.up ∉ c := by
  have hpath : Comp.up ∉ entry.comps → Comp.up ∉ joinRoot root entry := by
    intro hup hmem
    rcases List.mem_append.mp hmem with hmem | hmem
    · exact up_not_mem_ofNames root hmem
    · exact hup hmem
  unfold safeJoin at hjoin
  split at hjoin
  next => cases hjoin
  next =>
    split at hjoin
    next => cases hjoin
    next hup =>
      simp only at hjoin
      split at hjoin
      next =>
        cases hjoin
        exact ⟨rfl, hpath hup⟩
      next =>
        split at hjoin <;> cases hjoin
        exact ⟨rfl, hpath hup⟩

variable {entry : Entry}

/-- The names of a whiteout `.wh...` end in its file name. -/
theorem whiteout_above {stripped : String}
    (hstrip : stripWhiteout (entryFileName entry) = some stripped)
    (hsafe : names entry.path.comps ≠ [".wh..."]) (hdots : Comp.ofSegment stripped = .up) :
    root <+: (names (joinRoot root entry.path)).dropLast.dropLast := by
  have hname : entryFileName entry = ".wh..." := by
    have hstripped : stripped = ".." := by
      unfold Comp.ofSegment at hdots
      repeat' split at hdots
      all_goals first | assumption | cases hdots
    unfold stripWhiteout at hstrip
    split at hstrip
    next hpre =>
      obtain ⟨rest, hrest⟩ := List.isPrefixOf_iff_prefix.mp hpre
      injection hstrip with hstrip
      rw [hstripped, ← hrest] at hstrip
      have hdrop : (".wh.".toList ++ rest).drop 4 = rest := rfl
      rw [hdrop] at hstrip
      have hlist := congrArg String.toList hstrip
      rw [String.toList_ofList] at hlist
      rw [← String.toList_inj, ← hrest, hlist]
      rfl
    next => cases hstrip
  have hfile : fileName entry.path.comps = some ".wh..." := by
    unfold entryFileName at hname
    split at hname
    next =>
      cases hf : fileName entry.path.comps with
      | none => rw [hf] at hname; exact absurd hname (by decide)
      | some =>
        rw [hf, Option.getD_some] at hname
        rw [hname]
    next => exact absurd hname (by decide)
  have hlast : (names entry.path.comps).getLast? = some ".wh..." := by
    unfold fileName at hfile
    split at hfile
    next n hn =>
      injection hfile with hfile
      have hsplit := getLast?_split hn
      rw [← names_trimEnd, hsplit, names_concat, List.getLast?_concat, hfile]
    next => cases hfile
  -- the file name is not the only name
  obtain ⟨above, hsplit⟩ := List.getLast?_eq_some_iff.mp hlast
  have hne : above ≠ [] := by
    intro hnil
    rw [hnil] at hsplit
    exact hsafe hsplit
  rw [joinRoot_names, hsplit, ← List.append_assoc, List.dropLast_concat,
    List.dropLast_append_of_ne_nil hne]
  exact List.prefix_append root _

/-- The places that an entry must find and leave clear. -/
def entryWay (root : List String) (s : Unpacker) (entry : Entry) (q : List String) : Prop :=
  onTheWay root s q ∨ (entry.entryType = .symlink ∧ q = names (joinRoot root entry.path) ∧
    ∀ n, (joinRoot root entry.path).getLast? ≠ some (.name n))

theorem Good.inv_entry (hs : Good root h0 s)
    (hsafe : entry.entryType = .symlink → LinkSafe root s (joinRoot root entry.path)) :
    Inv root h0 (· ∈ s.queued) (entryWay root s entry) s where
  toInside := hs.toInside
  noLink q hq := by
    rcases hq with hq | ⟨hlink, rfl, htrailing⟩
    · exact hs.inv.noLink q hq
    · exact (hsafe hlink).leaf htrailing
  queued _ hc := hc

/-- A symlink that is safe is on nothing's way. -/
theorem not_entryWay
    (hsafe : entry.entryType = .symlink → LinkSafe root s (joinRoot root entry.path))
    (hlink : entry.entryType = .symlink)
    (hlast : ∃ n, (joinRoot root entry.path).getLast? = some (.name n))
    (hstrict : root <+: (names (joinRoot root entry.path)).dropLast) :
    ¬ entryWay root s entry (names (joinRoot root entry.path)) := by
  obtain ⟨n, hn⟩ := hlast
  rintro ((hroot | ⟨q, hq, hway⟩) | ⟨-, -, htrailing⟩)
  · refine not_prefix_dropLast ?_ (hroot.trans hstrict)
    rw [getLast?_split hn, names_concat]
    simp
  · exact (hsafe hlink).way q hq hway
  · exact htrailing n hn

/-- Directories, symlinks and files. -/
theorem materialize_triple (hs : Good root h0 s) (cap : Bool)
    (hup : Comp.up ∉ joinRoot root entry.path)
    (hsafe : entry.entryType = .symlink → LinkSafe root s (joinRoot root entry.path)) :
    Leads root h0 (· ∈ s.queued) (entryWay root s entry)
      (materialize root cap (joinRoot root entry.path) entry) fun _ => Good root h0 := by
  have hinside : root <+: names (joinRoot root entry.path) := by
    rw [joinRoot_names]
    exact List.prefix_append root _
  have hroot : ∀ q, q <+: root → entryWay root s entry q := fun q hq => .inl (.inl hq)
  have hQ : ∀ c, c ∈ s.queued → Plain root (entryWay root s entry) c :=
    fun c hc => (hs.plain_onTheWay c hc).mono fun q hq => .inl hq
  have hall : ∀ q, q <+: names (joinRoot root entry.path) →
      entryWay root s entry q ∨ q <+: names (joinRoot root entry.path) := fun q hq => .inr hq
  unfold materialize
  split
  next =>
    -- a directory: the new queued path has a clear way, its last name included
    refine triple_bind (makeDirectory_triple hroot entry) fun _ => ?_
    refine (setMode_triple hup hinside hall entry).post ?_
    intro _ t ht
    refine ht.good (fun q hq => .inl (hroot q hq)) ?_
    rintro c (hc | rfl)
    · exact (hQ c hc).mono fun q hq => .inl hq
    · exact Leaf.plain_of_clear ⟨hup, fun q hq => .inr (hq.trans (List.dropLast_prefix _)),
        hinside⟩ hall
  next =>
    split
    next hlink =>
      have htype : entry.entryType = .symlink := by
        cases htype : entry.entryType <;> simp [htype, EntryType.isSymlink] at hlink ⊢
      refine (makeSymlink_triple cap entry hup hinside hroot (not_entryWay hsafe htype)
        fun htrailing => .inr ⟨htype, rfl, htrailing⟩).post ?_
      exact fun _ t ht => ht.good hroot hQ
    next =>
      refine triple_bind (writeEntry_triple hup hinside hroot entry) fun _ => ?_
      refine triple_bind (setMode_triple hup hinside hall entry) fun _ => ?_
      have hpath : Plain root (fun q => entryWay root s entry q ∨
          q <+: names (joinRoot root entry.path)) (joinRoot root entry.path) :=
        Leaf.plain_of_clear ⟨hup, fun q hq => .inr (hq.trans (List.dropLast_prefix _)),
          hinside⟩ hall
      refine (preservePathOwner_triple hpath cap entry).post ?_
      exact fun _ t ht => ht.good (fun q hq => .inl (hroot q hq))
        fun c hc => (hQ c hc).mono fun q hq => .inl hq

/-- **One entry** keeps the invariant between entries. -/
theorem applyEntry_good (cap : Bool) (next : Except String Entry) :
    Triple (fun s => Good root h0 s ∧ entrySafe root s next) (applyEntry root cap next)
      (fun _ => Good root h0) (Inside root h0) := by
  rintro s ⟨hs, hsafe⟩
  cases next with
  | error => exact hs.toInside
  | ok entry =>
    obtain ⟨hlink, hdots⟩ := hsafe
    suffices htriple : Leads root h0 (· ∈ s.queued) (entryWay root s entry)
        (applyEntry root cap (.ok entry)) fun _ => Good root h0 from htriple s (hs.inv_entry hlink)
    have hroot : ∀ q, q <+: root → entryWay root s entry q := fun q hq => .inl (.inl hq)
    have hQ : ∀ c, c ∈ s.queued → Plain root (entryWay root s entry) c :=
      fun c hc => (hs.plain_onTheWay c hc).mono fun q hq => .inl hq
    refine triple_orOther (fun _ => Inv.toInside) fun _ he => ?_
    cases he
    refine triple_anyHost fun h => triple_orThrow (fun _ => Inv.toInside) fun c hc => ?_
    obtain ⟨rfl, hup⟩ := safeJoin_ok hc
    split
    next =>
      exact (applyOpaqueMarker_triple hup hroot).post fun _ t ht => ht.good hroot hQ
    next =>
      split
      next stripped hstrip =>
        exact queueWhiteout_triple hup hroot hQ (whiteout_above hstrip hdots)
      next =>
        exact triple_bind countEntry_triple fun _ => materialize_triple hs cap hup hlink

/-! ## §3. Layers. -/

/-- What waits for the end of the layer finds its way clear. -/
theorem finishLayer_triple (cap : Bool) : Triple (Good root h0) (finishLayer root cap)
      (fun _ t => Inside root h0 t ∧ t.host.Straight root) (Inside root h0) := by
  intro s hs
  suffices htriple : Keeps root h0 (· ∈ s.queued) (onTheWay root s)
      (do s.pendingDirOwners.reverse.forM (chownDirectory cap)
          s.pendingWhiteouts.forM (removeWhiteout root)) from
    (htriple s hs.inv).mono (fun _ t ht => ⟨ht.toInside, fun q hq => ht.noLink q (.inl hq)⟩)
      fun t ht => ht
  refine triple_bind (triple_forM fun owner howner => ?_) fun _ =>
    triple_forM fun whiteout hwhiteout => ?_
  · have hmem : owner.1 ∈ s.queued :=
      List.mem_append_left _ (List.mem_map_of_mem (List.mem_reverse.mp howner))
    unfold chownDirectory
    split
    next => exact chownPath_triple (hs.plain_onTheWay owner.1 hmem) _ _
    next => exact keeps_pure
  · have hmem : whiteout.1 ∈ s.queued :=
      List.mem_append_right _ (List.mem_map_of_mem hwhiteout)
    unfold removeWhiteout
    split
    next =>
      refine triple_anyHost fun h => ?_
      split
      next => exact keeps_pure
      next found _ => exact removeFound_triple (hs.plain_onTheWay whiteout.1 hmem) found
    next => exact keeps_pure

/-- Every entry of the layer is safe in the state it is applied to. -/
def layerSafe (root : List String) (cap : Bool) (s : Unpacker) (layer : LayerBlob) : Prop :=
  GuardedLoop (entrySafe root) (applyEntry root cap) s.fresh layer.entries

theorem applyLayer_triple (cap : Bool) (layer : LayerBlob) :
    Triple (fun s => (Inside root h0 s ∧ s.host.Straight root) ∧ layerSafe root cap s layer)
      (applyLayer root cap layer) (fun _ t => Inside root h0 t ∧ t.host.Straight root)
      (Inside root h0) := by
  refine triple_orOther (fun s hs => hs.1.1) fun _ _ => ?_
  refine triple_bind (triple_modify (R := fun _ s => Good root h0 s ∧
    GuardedLoop (entrySafe root) (applyEntry root cap) s layer.entries) ?_) fun _ => ?_
  · rintro s ⟨⟨hs, hstraight⟩, hsafe⟩
    refine ⟨⟨⟨hs.ops, hs.outside⟩, hstraight, ?_⟩, hsafe⟩
    intro c hc
    cases hc
  refine triple_bind (fun s hs => ?_) fun _ => finishLayer_triple cap
  exact ends_forM (applyEntry_good cap) hs.1 hs.2

/-! ## §4. The whole run. -/

/-- The rootfs directory is there: making it does nothing. -/
theorem createDirAll_existing (hroot : s.host.isDir root = true) :
    runProg (createDirAll root.reverse) s = (.ok ⟨⟩, s) := by
  by_cases hnil : root = []
  · rw [hnil]
    rfl
  · obtain ⟨n, parents, hsplit⟩ := List.exists_cons_of_ne_nil (List.reverse_ne_nil_iff.mpr hnil)
    have hback : (n :: parents).reverse = root := by rw [← hsplit, List.reverse_reverse]
    have hcall := mkdir_existing hnil hroot
    have hperform : runProg (perform .createDir (·.mkdir (ofNames root))) s =
        (.ok (.error .exist), s) := by
      show (Except.ok (s.host.mkdir (ofNames root)).result,
        s.traced .createDir (s.host.mkdir (ofNames root))) = _
      rw [hcall]
      refine Prod.ext rfl ?_
      show { s with ops := s.ops ++ [] } = s
      rw [List.append_nil]
    have hthere : runProg (orIsDir (ofNames root) .exist) s = (.ok ⟨⟩, s) := by
      show runProg (if isDirAt s.host (ofNames root) then _ else _) s = _
      rw [isDirAt, resolve_ofNames hroot]
      simp only [hroot, if_true]
      rfl
    rwa [hsplit, createDirAll, hback, runProg_bind, hperform]

/-- **Unpacking is confined**, whatever the layers: if every symlink entry leaves the way of
the queued paths alone, and no top-level whiteout names the directory above, then every call
of the run is at a path inside the rootfs directory, and nothing outside changes. -/
theorem unpack_confined (cap : Bool) (layers : List LayerBlob) (h : Host)
    (hroot : h.isDir root = true)
    (hsafe : GuardedLoop (layerSafe root cap) (applyLayer root cap) (Unpacker.start h) layers) :
    (∀ op ∈ (runProg (unpack root cap layers) (Unpacker.start h)).2.ops, root <+: op.path) ∧
    ∀ p, ¬ root <+: p →
      (runProg (unpack root cap layers) (Unpacker.start h)).2.host.node p = h.node p := by
  have hstart : Inside root h (Unpacker.start h) :=
    ⟨fun _ hop => absurd hop List.not_mem_nil, fun _ _ => rfl⟩
  have hends := ends_forM (applyLayer_triple cap)
    ⟨hstart, Host.Straight.of_isDir hroot⟩ hsafe
  have hinside : Inside root h (runProg (unpack root cap layers) (Unpacker.start h)).2 := by
    rw [unpack, runProg_bind, createDirAll_existing hroot]
    show Inside root h (runProg (layers.forM (applyLayer root cap)) (Unpacker.start h)).2
    revert hends
    generalize runProg (layers.forM (applyLayer root cap)) (Unpacker.start h) = r
    obtain ⟨_ | _, t⟩ := r
    · exact fun ht => ht
    · exact fun ht => ht.1
  exact ⟨hinside.ops, hinside.outside⟩

/-! ## §5. Layers that reach outside. -/

/-- A host with its top directory only. -/
def bareHost : Host where
  nodes := AList.singleton [] ⟨.dir, 0o755, 0, 0⟩
  closed p n node hnode := by
    simpa using List.mem_singleton.mp (AList.mem_lookup_iff.mp hnode)

/-- A host with `/etc`, which holds a directory, and an empty `/srv/rootfs`. -/
def serverHost : Host :=
  [["etc"], ["etc", "ssl"], ["srv"], ["srv", "rootfs"]].foldl
    (fun h d => (h.mkdir (ofNames d)).host) bareHost

/-- A root directory. -/
def rootfs : List String := ["srv", "rootfs"]

/-- An entry owned by user and group 1000. -/
def entryAt (path : String) (entryType : EntryType) (target : Option String) : Entry where
  path := PathText.parse path
  utf8 := true
  entryType := entryType
  linkName := .ok (target.map PathText.parse)
  entrySize := .ok 0
  mode := .ok 0o755
  uid := some 1000
  gid := some 1000
  data := []
  broken := none

/-- A layer that can be read. -/
def layerOf (entries : List Entry) : LayerBlob := ⟨.ok (), entries.map .ok⟩

/-- What a run leaves: whether it succeeded, where its last call was, and what is at a path. -/
def outcome (layers : List LayerBlob) (p : List String) : Bool × Option Op × Option (Nat × Nat) :=
  let r := runProg (unpack rootfs true layers) (Unpacker.start serverHost)
  (r.1.isOk, r.2.ops.getLast?, (r.2.host.node p).map fun n => (n.uid, n.gid))

/-- **Unpacking is not confined.**  A directory entry `a/` whose owner is queued, followed by
a symlink entry `a`, gives `/etc` away; the whiteout `.wh...` empties the directory above the
rootfs; and a symlink entry `a/`, where `a` is a symlink to `/etc`, empties `/etc`. -/
theorem unpack_escapes : serverHost.isDir rootfs = true ∧ serverHost.children rootfs = [] ∧
    (serverHost.node ["etc"]).map (fun n => (n.uid, n.gid)) = some (0, 0) ∧
    outcome [layerOf [entryAt "a/" .directory none, entryAt "a" .symlink (some "/etc")]]
      ["etc"] = (true, some ⟨.chown, ["etc"]⟩, some (1000, 1000)) ∧
    outcome [layerOf [entryAt ".wh..." .regular none]]
      rootfs = (true, some ⟨.removeDirAll, ["srv"]⟩, none) ∧
    (serverHost.node ["etc", "ssl"]).isSome = true ∧
    outcome [layerOf [entryAt "a" .symlink (some "/etc")],
      layerOf [entryAt "a/" .symlink (some "/usr")]]
      ["etc", "ssl"] = (false, some ⟨.removeDirAll, ["etc"]⟩, none) := by
  decide +kernel

/-- The conditions, tried along a run. -/
def testEntry (root : List String) (s : Unpacker) : Except String Entry → Bool
  | .error _ => true
  | .ok entry =>
      (!entry.entryType.isSymlink ||
        (s.queued.all fun q =>
            !(names (joinRoot root entry.path)).isPrefixOf (names (followed q))) &&
          decide (s.host.NoLink (names (joinRoot root entry.path)))) &&
      decide (names entry.path.comps ≠ [".wh..."])

theorem entrySafe_of_test {next : Except String Entry} (h : testEntry root s next = true) :
    entrySafe root s next := by
  cases next with
  | error => exact trivial
  | ok =>
    rw [testEntry, Bool.and_eq_true, decide_eq_true_eq] at h
    refine ⟨fun hlink => ?_, h.2⟩
    have hboth := h.1
    rw [hlink, EntryType.isSymlink, Bool.not_true, Bool.false_or, Bool.and_eq_true,
      decide_eq_true_eq, List.all_eq_true] at hboth
    refine ⟨fun q hq hway => ?_, fun _ => hboth.2⟩
    have hnot := hboth.1 q hq
    simp [List.isPrefixOf_iff_prefix.mpr hway] at hnot

/-- A layer with directories, a usrmerge symlink and a file, and one that whites them out. -/
def plainLayers : List LayerBlob :=
  [layerOf [entryAt "usr/" .directory none, entryAt "lib" .symlink (some "usr/lib"),
      entryAt "usr/run" .regular none],
    layerOf [entryAt "usr/.wh.run" .regular none, entryAt ".wh.lib" .regular none]]

theorem unpack_confined_server : serverHost.isDir rootfs = true ∧
    (outcome plainLayers ["etc"]).1 = true ∧
    (∀ op ∈ (runProg (unpack rootfs true plainLayers) (Unpacker.start serverHost)).2.ops,
      rootfs <+: op.path) ∧
    ∀ p, ¬ rootfs <+: p →
      (runProg (unpack rootfs true plainLayers) (Unpacker.start serverHost)).2.host.node p =
        serverHost.node p := by
  refine ⟨by decide +kernel, by decide +kernel, ?_⟩
  have hcheck : checkLoop (fun s layer =>
      checkLoop (testEntry rootfs) (applyEntry rootfs true) s.fresh layer.entries)
      (applyLayer rootfs true) (Unpacker.start serverHost) plainLayers = true := by
    decide +kernel
  refine unpack_confined true plainLayers serverHost (by decide +kernel) ?_
  refine guardedLoop_of_check ?_ hcheck
  intro s layer hlayer
  exact guardedLoop_of_check (fun _ _ => entrySafe_of_test) hlayer

end Denia.Oci
