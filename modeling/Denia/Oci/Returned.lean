/-
  Denia.Oci.Returned — what the functions of the unpacker HAVE DONE when they return.

  Each has one lemma: the kinds of nodes below the root and the queued whiteouts
  after it, as functions of those before, and what the checks it has passed say about the
  tree.  Modes, owners and counts are left out.

  Main results: `returns_makeDirectory`, `returns_writeEntry`, `returns_makeSymlink` for
  entries, `returns_applyOpaqueMarker`, `returns_queueWhiteout`, `returns_removeWhiteout` for
  markers.
-/
import Denia.Lib.Kinds
import Denia.Oci.Changeset
import Denia.Oci.Rules

namespace Denia.Oci

open Lib Host Comp

/-- What lies below the root directory. -/
def viewOf (root : List String) (h : Host) : View := fun q => h.kind (root ++ q)

variable {s : Unpacker} {root : List String} {item : Item} {found : Node}

/-! ## §1. What returned programs have done. -/

section
variable {s' : Unpacker} {r : PUnit} {α β : Type} {b : β}

theorem returns_readHost_bind {f : Host → Unpack β} :
    Returns (readHost >>= f) s b s' ↔ Returns (f s.host) s b s' := Iff.rfl

variable {kind : OpKind} {call : Host → Host.Done} {f : α → Unpack β}
  {c dir safePath parent : List Comp} {e : Entry} {cap : Bool} {ns rel d p : List String}
  {n m : String} {h : Host}

theorem returns_perform_bind {f : Except Errno Unit → Unpack β} :
    Returns (perform kind call >>= f) s b s' ↔
      Returns (f (call s.host).result) (s.traced kind (call s.host)) b s' := Iff.rfl

theorem returns_ignore_perform :
    Returns (ignore (perform kind call)) s r s' ↔ s' = s.traced kind (call s.host) := by
  unfold ignore
  rw [returns_perform_bind, returns_pure]
  exact ⟨fun h => h.2, fun h => ⟨rfl, h⟩⟩

/-- The `?` operator, on whatever error. -/
theorem returns_question_bind {ε : Type} {lift : Except ε α → Unpack α} {x : Except ε α}
    (hpure : ∀ a, lift (.ok a) = pure a) (hthrow : ∀ e, ∃ y, lift (.error e) = throw y) :
    Returns (lift x >>= f) s b s' ↔ ∃ a, x = .ok a ∧ Returns (f a) s b s' := by
  rw [returns_bind]
  cases x with
  | error e =>
    obtain ⟨y, hy⟩ := hthrow e
    rw [hy]
    exact ⟨fun ⟨_, _, h, _⟩ => absurd h returns_throw, nofun⟩
  | ok => simp [hpure, returns_pure]

theorem returns_orIo_bind {x : Except Errno α} :
    Returns (orIo x >>= f) s b s' ↔ ∃ a, x = .ok a ∧ Returns (f a) s b s' :=
  returns_question_bind (fun _ => rfl) fun _ => ⟨_, rfl⟩

theorem returns_orOther_bind {x : Except String α} :
    Returns (orOther x >>= f) s b s' ↔ ∃ a, x = .ok a ∧ Returns (f a) s b s' :=
  returns_question_bind (fun _ => rfl) fun _ => ⟨_, rfl⟩

theorem returns_orThrow_bind {x : Except OciError α} :
    Returns (orThrow x >>= f) s b s' ↔ ∃ a, x = .ok a ∧ Returns (f a) s b s' :=
  returns_question_bind (fun _ => rfl) fun _ => ⟨_, rfl⟩

theorem returns_orIo {x : Except Errno PUnit} : Returns (orIo x) s r s' ↔ x = .ok r ∧ s' = s := by
  cases x with
  | error => exact ⟨fun h => absurd h returns_throw, nofun⟩
  | ok => exact returns_pure.trans (and_congr_left' ⟨fun h => h ▸ rfl, fun _ => rfl⟩)

/-- The nodes are of the same kinds, and the same whiteouts wait. -/
structure Alike (s s' : Unpacker) : Prop where
  kinds : ∀ q, s'.host.kind q = s.host.kind q
  whiteouts : s'.pendingWhiteouts = s.pendingWhiteouts

theorem Alike.refl : Alike s s := ⟨fun _ => rfl, rfl⟩

theorem alike_pure {a : PUnit} (h : Returns (pure a : Unpack PUnit) s r s') : Alike s s' := by
  obtain ⟨-, rfl⟩ := returns_pure.mp h
  exact .refl

theorem Alike.trans {s1 s2 s3 : Unpacker} (h : Alike s1 s2) (h' : Alike s2 s3) : Alike s1 s3 :=
  ⟨fun q => (h'.kinds q).trans (h.kinds q), h'.whiteouts.trans h.whiteouts⟩

theorem Alike.view (h : Alike s s') : viewOf root s'.host = viewOf root s.host :=
  funext fun q => h.kinds (root ++ q)

theorem alike_countEntry (h : Returns countEntry s r s') : Alike s s' := by
  unfold countEntry at h
  rw [returns_modify_bind, returns_get_bind] at h
  split at h
  · exact absurd h returns_throw
  · obtain ⟨-, rfl⟩ := returns_pure.mp h
    exact ⟨fun _ => rfl, rfl⟩

theorem alike_countBytes {written : Nat} (h : Returns (countBytes written) s r s') :
    Alike s s' := by
  unfold countBytes at h
  rw [returns_modify_bind, returns_get_bind] at h
  split at h
  · exact absurd h returns_throw
  · obtain ⟨-, rfl⟩ := returns_pure.mp h
    exact ⟨fun _ => rfl, rfl⟩

theorem alike_setMode (h : Returns (setMode c e) s r s') : Alike s s' := by
  unfold setMode at h
  obtain ⟨mode, -, h⟩ := returns_orOther_bind.mp h
  split at h
  · exact alike_pure h
  · obtain rfl := returns_ignore_perform.mp h
    exact ⟨kind_chmod s.host c _, rfl⟩

theorem alike_chownPath {uid gid : Nat} (h : Returns (chownPath c uid gid) s r s') :
    Alike s s' := by
  unfold chownPath at h
  rw [returns_perform_bind] at h
  obtain ⟨-, rfl⟩ := returns_orIo.mp h
  exact ⟨kind_lchown s.host c uid gid, rfl⟩

theorem alike_preservePathOwner (h : Returns (preservePathOwner cap c e) s r s') : Alike s s' := by
  unfold preservePathOwner at h
  split at h
  · obtain ⟨owner, -, h⟩ := returns_orThrow_bind.mp h
    split at h
    · exact alike_pure h
    · exact alike_chownPath h
  · exact alike_pure h

theorem alike_chownDirectory {owner : List Comp × Nat × Nat}
    (h : Returns (chownDirectory cap owner) s r s') : Alike s s' := by
  unfold chownDirectory at h
  split at h
  · exact alike_chownPath h
  · exact alike_pure h

theorem alike_forM {τ : Type} {f : τ → Unpack PUnit} {xs : List τ}
    (hf : ∀ x s r s', Returns (f x) s r s' → Alike s s') (h : Returns (xs.forM f) s r s') :
    Alike s s' := by
  induction xs generalizing s with
  | nil =>
    exact alike_pure h
  | cons x xs ih =>
    obtain ⟨s1, hx, hxs⟩ := returns_forM_cons.mp h
    exact (hf x s _ s1 hx).trans (ih hxs)

/-- A check changes nothing. -/
theorem alike_ensureExistingDirNoSymlink
    (h : Returns (ensureExistingDirNoSymlink root dir) s r s') :
    Alike s s' := by
  unfold ensureExistingDirNoSymlink at h
  split at h
  · refine alike_forM ?_ h
    intro current s r s' hstep
    unfold ensureStep at hstep
    rw [returns_readHost_bind] at hstep
    obtain ⟨found, -, hstep⟩ := returns_orIo_bind.mp hstep
    split at hstep
    · exact absurd hstep returns_throw
    · split at hstep
      · exact alike_pure hstep
      · exact absurd hstep returns_throw
  · exact absurd h returns_throw

/-! ## §2. Directories. -/

/-- One name down: the place was free or a directory, and is a directory. -/
theorem returns_createStep (hdir : s.host.isDir ns = true)
    (h : Returns (createStep (ofNames (ns ++ [n]))) s r s') :
    (s.host.kind (ns ++ [n]) = none ∨ s.host.kind (ns ++ [n]) = some .dir) ∧
      (∀ q, s'.host.kind q = if q = ns ++ [n] then some .dir else s.host.kind q) ∧
      s'.pendingWhiteouts = s.pendingWhiteouts := by
  have hentry : s.host.entryOf (ofNames (ns ++ [n])) = .ok (ns, n) := by
    have hent := entryOf_of_isDir (n := n) (up_not_mem_ofNames ns) (names_ofNames ns ▸ hdir)
    rwa [names_ofNames, ← ofNames_concat] at hent
  unfold createStep at h
  rw [returns_readHost_bind, lstat_of_entryOf hentry] at h
  cases hnode : s.host.node (ns ++ [n]) with
  | none =>
    rw [hnode] at h
    obtain ⟨hok, rfl⟩ := returns_orIo.mp (returns_perform_bind.mp h)
    obtain ⟨d, m, hentry', -, hfree, hkind⟩ := make_ok hok
    cases hentry.symm.trans hentry'
    exact ⟨.inl hfree, hkind, rfl⟩
  | some found =>
    rw [hnode] at h
    simp only [Option.map_some, Option.getD_some] at h
    split at h
    · exact absurd h returns_throw
    · split at h
      next hisDir =>
        obtain ⟨-, rfl⟩ := returns_pure.mp h
        have hkind : s'.host.kind (ns ++ [n]) = some .dir :=
          kind_eq_dir_iff.mpr (isDir_iff.mpr ⟨found, hnode, hisDir⟩)
        refine ⟨.inr hkind, fun q => ?_, rfl⟩
        split
        next hq => rw [hq, hkind]
        next => rfl
      next => exact absurd h returns_throw

/-- Down a list of names. -/
theorem returns_descend (hdir : s.host.isDir ns = true)
    (h : Returns (((rel.inits.drop 1).map fun r => ofNames (ns ++ r)).forM createStep) s r s') :
    (∀ q, ns <+: q → q <+: ns ++ rel → s.host.kind q = none ∨ s.host.kind q = some .dir) ∧
      (∀ q, s'.host.kind q =
        if ns <+: q ∧ q <+: ns ++ rel then some .dir else s.host.kind q) ∧
      s'.pendingWhiteouts = s.pendingWhiteouts := by
  have hroot := kind_eq_dir_iff.mpr hdir
  induction rel generalizing s ns with
  | nil =>
    obtain ⟨-, rfl⟩ := returns_pure.mp h
    have hat : ∀ q, ns <+: q → q <+: ns ++ [] → q = ns :=
      fun q hns hq => prefix_antisymm (List.append_nil ns ▸ hq) hns
    refine ⟨fun q hns hq => .inr (hat q hns hq ▸ hroot), fun q => ?_, rfl⟩
    split
    next hq => rw [hat q hq.1 hq.2, hroot]
    next => rfl
  | cons n rel ih =>
    rw [below_cons] at h
    obtain ⟨s1, hfirst, hrest⟩ := returns_forM_cons.mp h
    obtain ⟨hfree, hkind, hqueue⟩ := returns_createStep hdir hfirst
    have hnext : s1.host.kind (ns ++ [n]) = some .dir := by
      rw [hkind, if_pos rfl]
    obtain ⟨hfree', hkind', hqueue'⟩ := ih (kind_eq_dir_iff.mp hnext) hrest hnext
    rw [← List.append_cons] at hfree' hkind'
    -- the places on the way are the start and those past the first name
    have hway : ∀ q, ns <+: q ∧ q <+: ns ++ n :: rel ↔
        q = ns ∨ ns ++ [n] <+: q ∧ q <+: ns ++ n :: rel := by
      intro q
      constructor
      · rintro ⟨⟨t, rfl⟩, hq⟩
        cases t with
        | nil => exact .inl (List.append_nil ns)
        | cons m t =>
          obtain ⟨rfl, -⟩ := List.cons_prefix_cons.mp ((List.prefix_append_right_inj ns).mp hq)
          exact .inr ⟨⟨t, (List.append_cons ns m t).symm⟩, hq⟩
      · rintro (rfl | ⟨hpast, hq⟩)
        · exact ⟨List.prefix_rfl, List.prefix_append q _⟩
        · exact ⟨(List.prefix_append ns [n]).trans hpast, hq⟩
    refine ⟨fun q hns hq => ?_, fun q => ?_, hqueue'.trans hqueue⟩
    · rcases (hway q).mp ⟨hns, hq⟩ with rfl | ⟨hpast, -⟩
      · exact .inr hroot
      · by_cases hfst : q = ns ++ [n]
        · rwa [hfst]
        · simpa only [hkind, if_neg hfst] using hfree' q hpast hq
    · rw [hkind', hkind]
      by_cases hfst : q = ns ++ [n]
      · simp [hfst]
      · by_cases hstart : q = ns <;> simp [hway, hfst, hstart, hroot]

/-- `create_dir_all_no_symlink`: the directories on the way are there. -/
theorem returns_createDirAllNoSymlink (hdir : s.host.isDir root = true)
    (h : Returns (createDirAllNoSymlink root dir) s r s') : ∃ rel, names dir = root ++ rel ∧
      (∀ q, q <+: rel → viewOf root s.host q = none ∨ viewOf root s.host q = some .dir) ∧
      (∀ q, viewOf root s'.host q =
        if q <+: rel then some .dir else viewOf root s.host q) ∧
      s'.pendingWhiteouts = s.pendingWhiteouts := by
  unfold createDirAllNoSymlink at h
  split at h
  next hstart =>
    obtain ⟨hfree, hkind, hqueue⟩ := returns_descend hdir h
    refine ⟨_, names_of_startsWith hstart, ?_, ?_, hqueue⟩
    · intro q hq
      exact hfree _ (List.prefix_append root q) ((List.prefix_append_right_inj root).mpr hq)
    · intro q
      unfold viewOf
      rw [hkind]
      simp only [List.prefix_append, List.prefix_append_right_inj, true_and]
  next => exact absurd h returns_throw

/-- The parents of a path: it has a last name, and lies below a directory of the root. -/
theorem returns_createParents (hup : up ∉ c) (hdir : s.host.isDir root = true)
    (h : Returns (createParents root c) s r s') :
    (names c = [] ∧ s' = s) ∨ ∃ rel n, names c = root ++ (rel ++ [n]) ∧
      (∀ q, q <+: rel → viewOf root s.host q = none ∨ viewOf root s.host q = some .dir) ∧
      (∀ q, viewOf root s'.host q =
        if q <+: rel then some .dir else viewOf root s.host q) ∧
      s'.pendingWhiteouts = s.pendingWhiteouts := by
  unfold createParents at h
  split at h
  next hnone => exact .inl ⟨parentPath_none hnone, (returns_pure.mp h).2⟩
  next parent hparent =>
    obtain ⟨⟨n, -, hnames⟩, -⟩ := parentPath_some hup hparent
    obtain ⟨rel, hrel, hfree, hkind, hqueue⟩ := returns_createDirAllNoSymlink hdir h
    refine .inr ⟨rel, n, ?_, hfree, hkind, hqueue⟩
    rw [hnames, hrel, List.append_assoc]

/-- Where nothing but a name can be: below a directory that is there. -/
theorem entryOf_below (hup : up ∉ c) (hlast : c.getLast? = some (.name m))
    (hnames : names c = d ++ [n]) (hdir : h.isDir d = true) : h.entryOf c = .ok (d, n) := by
  have hc := getLast?_split hlast
  have hsplit : names c.dropLast ++ [m] = d ++ [n] := by
    rw [← hnames]
    conv_rhs => rw [hc]
    rw [names_append]
    rfl
  obtain ⟨hd, hm⟩ := List.append_inj' hsplit rfl
  obtain rfl := (List.cons.inj hm).1
  have hdir' : h.isDir (names c.dropLast) = true := by
    rwa [hd]
  rw [hc, entryOf_of_isDir (up_not_mem_dropLast hup) hdir', hd]

/-! ## §3. Items. -/

/-- A directory entry. -/
theorem returns_makeDirectory (hnames : names c = root ++ p) (hdir : s.host.isDir root = true)
    (h : Returns (makeDirectory root c e) s r s') : Allows (viewOf root s.host) p .dir ∧
      viewOf root s'.host = (Change.add p .dir).apply (viewOf root s.host) ∧
      s'.pendingWhiteouts = s.pendingWhiteouts := by
  unfold makeDirectory at h
  obtain ⟨_, s1, hcreate, h⟩ := returns_bind.mp h
  obtain ⟨rel, hrel, hfree, hkind, hqueue⟩ := returns_createDirAllNoSymlink hdir hcreate
  obtain rfl : p = rel := List.append_cancel_left (hnames.symm.trans hrel)
  obtain ⟨owner, -, h⟩ := returns_orThrow_bind.mp h
  have hs : Alike s1 s' := by
    split at h
    · exact alike_pure h
    · obtain rfl := returns_modify.mp h
      exact ⟨fun _ => rfl, rfl⟩
  refine ⟨⟨fun q hq => hfree q (mem_above.mp hq).1, hfree p List.prefix_rfl⟩, funext fun q => ?_,
    hs.whiteouts.trans hqueue⟩
  rw [hs.view, hkind, Change.apply, Change.touch]
  by_cases hq : q = p
  · simp [hq, Item.made]
  · simp [hq, Item.made]

/-- What is put at a path, past the directories above it and what it covers. -/
theorem apply_put {T T1 T' : View} (hitem : item.made ≠ .dir)
    (hparents : ∀ q, T1 q = if q <+: rel then some .dir else T q)
    (hput : ∀ q, T' q = if q = rel ++ [n] then some item.made
      else if rel ++ [n] <+: q then none else T1 q) :
    T' = (Change.add (rel ++ [n]) item).apply T := by
  funext q
  rw [hput, hparents, Change.apply, Change.touch]
  by_cases hq : q = rel ++ [n]
  · rw [if_pos hq, if_pos hq]
  · have habove : q <+: rel ++ [n] ↔ q <+: rel := by
      rw [List.prefix_concat_iff]
      exact or_iff_right hq
    by_cases hcover : rel ++ [n] <+: q
    · have hnot : ¬ q <+: rel ++ [n] := fun hpre => hq (prefix_antisymm hpre hcover)
      simp [hq, hcover, hnot, hitem]
    · simp [hq, hcover, habove]

theorem isDir_iff_view : h.isDir root = true ↔ viewOf root h [] = some .dir := by
  rw [viewOf, List.append_nil, kind_eq_dir_iff]

theorem closed_view (root : List String) (h : Host) : Closed (viewOf root h) := by
  intro p n hk
  unfold viewOf at hk ⊢
  rw [← List.append_assoc] at hk
  exact kind_closed hk

/-- Nothing lies below what is no directory. -/
theorem kind_below_none {q : List String} (hp : h.isDir p = false) (hpq : Beneath p q) :
    h.kind q = none := by
  by_contra hq
  have hdir := kind_eq_dir_iff.mp ((closed_view [] h).above hpq hq)
  exact Bool.false_ne_true (hp.symm.trans hdir)

/-- What is no directory goes alone. -/
theorem kind_unlink_file (hentry : h.entryOf c = .ok (d, n)) (hfile : h.isDir (d ++ [n]) = false)
    (q : List String) : (h.unlink c).host.kind q = if d ++ [n] <+: q then none else h.kind q := by
  rw [kind_unlink hentry]
  by_cases hq : q = d ++ [n]
  · simp [hq, hfile]
  · rw [if_neg fun hboth => hq hboth.1]
    split
    next hpre => exact kind_below_none hfile ⟨hpre, hq⟩
    next => rfl

/-- What stands at a name of a directory, when what is no directory is unlinked. -/
theorem returns_unlinkStale (hentry : s.host.entryOf c = .ok (d, n))
    (h : Returns (unlinkStale c) s r s') : (∀ q, s'.host.kind q =
        if q = d ++ [n] ∧ s.host.isDir (d ++ [n]) = false then none else s.host.kind q) ∧
      s'.pendingWhiteouts = s.pendingWhiteouts := by
  unfold unlinkStale at h
  rw [returns_readHost_bind, lstat_of_entryOf hentry] at h
  cases hnode : s.host.node (d ++ [n]) with
  | none =>
    rw [hnode] at h
    obtain ⟨-, rfl⟩ := returns_pure.mp h
    refine ⟨fun q => ?_, rfl⟩
    split
    next hq => rw [hq.1, kind_eq_none_iff.mpr hnode]
    next => rfl
  | some found =>
    rw [hnode] at h
    simp only [Option.map_some, Option.getD_some] at h
    split at h
    next hisDir =>
      obtain ⟨-, rfl⟩ := returns_pure.mp h
      simp [isDir_iff.mpr ⟨found, hnode, hisDir⟩]
    next =>
      obtain rfl := returns_ignore_perform.mp h
      exact ⟨kind_unlink hentry, rfl⟩

/-- The parents of a path that ends in a name are made: the path has an entry there, also while
only the entry's own place changes. -/
theorem returns_parents (hup : up ∉ c) (hlast : c.getLast? = some (.name m))
    (hnames : names c = root ++ p) (hdir : s.host.isDir root = true)
    (h : Returns (createParents root c) s r s') : ∃ rel n, p = rel ++ [n] ∧
      (∀ q ∈ above p, viewOf root s.host q = none ∨ viewOf root s.host q = some .dir) ∧
      (∀ q, viewOf root s'.host q = if q <+: rel then some .dir else viewOf root s.host q) ∧
      s'.pendingWhiteouts = s.pendingWhiteouts ∧
      ∀ h : Host, (∀ q, ¬ root ++ rel ++ [n] <+: q → h.kind q = s'.host.kind q) →
        h.entryOf c = .ok (root ++ rel, n) := by
  rcases returns_createParents hup hdir h with ⟨hnil, -⟩ | ⟨rel, n, hrel, hfree, hkind, hqueue⟩
  · -- a path that ends in a name has one
    have hmem : m ∈ names c := by
      rw [getLast?_split hlast, names_append]
      exact List.mem_append_right _ List.mem_cons_self
    simp [hnil] at hmem
  · obtain rfl : p = rel ++ [n] := List.append_cancel_left (hnames.symm.trans hrel)
    refine ⟨rel, n, rfl, fun q hq => hfree q (beneath_concat.mp (mem_above.mp hq)), hkind, hqueue,
      fun h hsame => ?_⟩
    refine entryOf_below hup hlast (by rw [hrel, List.append_assoc]) (kind_eq_dir_iff.mp ?_)
    rw [hsame _ not_concat_prefix]
    show viewOf root s'.host rel = _
    rw [hkind, if_pos List.prefix_rfl]

/-- A file entry, and a hardlink. -/
theorem returns_writeEntry (hitem : item = .file e.data ∨ ∃ target, item = .hardlink target e.data)
    (hup : up ∉ c) (hnames : names c = root ++ p) (hdir : s.host.isDir root = true)
    (h : Returns (writeEntry root c e) s r s') : Allows (viewOf root s.host) p item ∧
      viewOf root s'.host = (Change.add p item).apply (viewOf root s.host) ∧
      s'.pendingWhiteouts = s.pendingWhiteouts := by
  unfold writeEntry at h
  obtain ⟨size, -, h⟩ := returns_orOther_bind.mp h
  split at h
  next => exact absurd h returns_throw
  next =>
    obtain ⟨_, s1, hparents, h⟩ := returns_bind.mp h
    obtain ⟨_, s2, hstale, h⟩ := returns_bind.mp h
    rw [returns_perform_bind] at h
    obtain ⟨_, hwrite, h⟩ := returns_orIo_bind.mp h
    obtain ⟨written, -, h⟩ := returns_orOther_bind.mp h
    have hcount := alike_countBytes h
    obtain ⟨m, hlast⟩ := writeFile_last hwrite
    obtain ⟨rel, n, rfl, hfree, hkind, hqueue, hentry⟩ :=
      returns_parents hup hlast hnames hdir hparents
    obtain ⟨hkind2, hqueue2⟩ := returns_unlinkStale (hentry _ fun _ _ => rfl) hstale
    have hentry2 := hentry s2.host fun q hq => by
      rw [hkind2, if_neg]
      exact fun hboth => hq (hboth.1 ▸ List.prefix_rfl)
    -- what was no directory is gone, so there is no symlink to write through
    have hplace : s2.host.kind (root ++ rel ++ [n]) = none ∨
        s2.host.kind (root ++ rel ++ [n]) = some .dir := by
      rw [hkind2]
      split
      next => exact .inl rfl
      next hisDir => exact .inr (kind_eq_dir_iff.mpr (by simpa using hisDir))
    have hleaf : ∀ d k, s2.host.entryOf c = .ok (d, k) → s2.host.NoLink (d ++ [k]) := by
      intro d k hdk
      cases hentry2.symm.trans hdk
      refine noLink_of_kind fun target hlink => ?_
      rcases hplace with hplace | hplace <;> cases hplace.symm.trans hlink
    obtain ⟨d, k, hdk, hnotDir, hkind3⟩ := writeFile_ok hleaf hwrite
    cases hentry2.symm.trans hdk
    have hfile : s1.host.isDir (root ++ rel ++ [n]) = false := by
      by_contra hisDir
      refine hnotDir ?_
      rw [hkind2, if_neg fun hboth => hisDir hboth.2]
      exact kind_eq_dir_iff.mpr (by simpa only [Bool.not_eq_false] using hisDir)
    have hmade : item.made = .file e.data := by
      rcases hitem with rfl | ⟨target, rfl⟩ <;> rfl
    have hnot : viewOf root s.host (rel ++ [n]) ≠ some .dir := by
      have hview := hkind (rel ++ [n])
      rw [if_neg not_concat_prefix, viewOf, ← List.append_assoc] at hview
      rw [← hview, ne_eq, kind_eq_dir_iff, hfile]
      exact Bool.false_ne_true
    refine ⟨?_, apply_put (by rw [hmade]; nofun) hkind fun q => ?_,
      hcount.whiteouts.trans (hqueue2.trans hqueue)⟩
    · rcases hitem with rfl | ⟨target, rfl⟩ <;> exact ⟨hfree, hnot⟩
    · rw [hcount.view]
      show (s2.host.writeFile c e.data).host.kind (root ++ q) = _
      rw [hkind3, hkind2, List.append_assoc, hmade]
      simp only [List.append_right_inj]
      by_cases hq : q = rel ++ [n]
      · rw [if_pos hq, if_pos hq]
      · rw [if_neg hq, if_neg hq, if_neg fun hboth => hq hboth.1]
        split
        next hcover =>
          rw [← (List.prefix_append_right_inj root), ← List.append_assoc] at hcover
          exact kind_below_none hfile ⟨hcover, by simpa using hq⟩
        next => rfl

/-- What stood at the place of a symlink is gone, with all below it. -/
theorem returns_clearDirectory (hentry : s.host.entryOf c = .ok (d, n))
    (hentry' : (s.host.unlink c).host.entryOf c = .ok (d, n))
    (h : Returns (clearDirectory c) (s.traced kind (s.host.unlink c)) r s') :
    (∀ q, s'.host.kind q = if d ++ [n] <+: q then none else s.host.kind q) ∧
      s'.pendingWhiteouts = s.pendingWhiteouts := by
  unfold clearDirectory at h
  have hlstat := lstat_of_entryOf hentry'
  rw [returns_readHost_bind, show (s.traced kind (s.host.unlink c)).host = (s.host.unlink c).host
    from rfl, hlstat] at h
  cases hisDir : s.host.isDir (d ++ [n]) with
  | false =>
    rw [unlink_gone hentry hisDir] at h
    obtain ⟨-, rfl⟩ := returns_pure.mp h
    exact ⟨kind_unlink_file hentry hisDir, rfl⟩
  | true =>
    have hsame : ∀ q, (s.host.unlink c).host.kind q = s.host.kind q := by
      simp [kind_unlink hentry, hisDir]
    have hdir : (s.host.unlink c).host.isDir (d ++ [n]) = true := by
      rw [← kind_eq_dir_iff, hsame, kind_eq_dir_iff, hisDir]
    obtain ⟨found, hfound, hfoundDir⟩ := isDir_iff.mp hdir
    rw [hfound] at h
    simp only [Option.map_some, Option.getD_some, hfoundDir, if_true] at h
    obtain ⟨-, rfl⟩ := returns_orIo.mp (returns_perform_bind.mp h)
    refine ⟨fun q => ?_, rfl⟩
    rw [← hsame]
    exact kind_removeDirAll hentry' hdir q

/-- A symlink entry. -/
theorem returns_makeSymlink (hup : up ∉ c) (hnames : names c = root ++ p)
    (hdir : s.host.isDir root = true) (h : Returns (makeSymlink root cap c e) s r s') :
    ∃ target, e.linkName = .ok (some target) ∧ Allows (viewOf root s.host) p (.link target) ∧
      viewOf root s'.host = (Change.add p (.link target)).apply (viewOf root s.host) ∧
      s'.pendingWhiteouts = s.pendingWhiteouts := by
  unfold makeSymlink at h
  obtain ⟨link, hlink, h⟩ := returns_orOther_bind.mp h
  split at h
  next => exact absurd h returns_throw
  next target =>
    rw [returns_readHost_bind] at h
    obtain ⟨_, -, h⟩ := returns_orThrow_bind.mp h
    obtain ⟨_, s1, hparents, h⟩ := returns_bind.mp h
    obtain ⟨_, s2, hunlink, h⟩ := returns_bind.mp h
    obtain ⟨_, s3, hclear, h⟩ := returns_bind.mp h
    rw [returns_perform_bind] at h
    obtain ⟨_, hmake, h⟩ := returns_orIo_bind.mp h
    have howner := alike_preservePathOwner h
    obtain rfl := returns_ignore_perform.mp hunlink
    obtain ⟨d, k, hentry3, -, hkind3⟩ := symlink_ok hmake
    obtain ⟨rel, n, rfl, hfree, hkind, hqueue, hentry⟩ :=
      returns_parents hup (entryOf_eq_ok.mp hentry3).1 hnames hdir hparents
    -- what stood at the path is gone before the link is made
    have hentry1 := hentry s1.host fun _ _ => rfl
    have hentry2 := hentry (s1.host.unlink c).host fun q hq => by
      rw [kind_unlink hentry1, if_neg]
      exact fun hboth => hq (hboth.1 ▸ List.prefix_rfl)
    obtain ⟨hkind2, hqueue2⟩ := returns_clearDirectory hentry1 hentry2 hclear
    cases (hentry s3.host fun q hq => by rw [hkind2, if_neg hq]).symm.trans hentry3
    refine ⟨target, hlink, ⟨hfree, by simp⟩, apply_put nofun hkind fun q => ?_,
      howner.whiteouts.trans (hqueue2.trans hqueue)⟩
    rw [howner.view]
    show (s3.host.symlink target c).host.kind (root ++ q) = _
    rw [hkind3, hkind2, List.append_assoc]
    simp only [List.append_right_inj, List.prefix_append_right_inj]
    rfl

/-! ## §4. Markers. -/

/-- What a removal of something that is there leaves. -/
theorem returns_removeFound (hup : up ∉ c) (hdir : s.host.isDir (names c) = true)
    (hfound : s.host.node (names c ++ [n]) = some found)
    (h : Returns (removeFound found (c ++ [.name n])) s r s') :
    (∀ q, s'.host.kind q = if names c ++ [n] <+: q then none else s.host.kind q) ∧
      s'.pendingWhiteouts = s.pendingWhiteouts := by
  have hentry := entryOf_of_isDir (n := n) hup hdir
  unfold removeFound at h
  split at h
  next hisDir =>
    obtain rfl := returns_ignore_perform.mp h
    exact ⟨kind_removeDirAll hentry (isDir_iff.mpr ⟨found, hfound, hisDir⟩), rfl⟩
  next hnot =>
    obtain rfl := returns_ignore_perform.mp h
    refine ⟨kind_unlink_file hentry (Bool.eq_false_iff.mpr fun hisDir => hnot ?_), rfl⟩
    obtain ⟨node, hnode, hnodeDir⟩ := isDir_iff.mp hisDir
    exact Option.some.inj (hfound.symm.trans hnode) ▸ hnodeDir

theorem lstat_name (hup : up ∉ c) (hdir : h.isDir (names c) = true)
    (hfound : h.lstat (c ++ [.name n]) = .ok found) : h.node (names c ++ [n]) = some found := by
  rw [lstat_of_entryOf (entryOf_of_isDir hup hdir)] at hfound
  cases hnode : h.node (names c ++ [n]) with
  | none => simp [hnode] at hfound
  | some => simpa [hnode] using hfound

/-- The children of a directory go one by one, those with the marker's name excepted. -/
theorem returns_removeChildren {children : List String} (hup : up ∉ parent)
    (hdir : s.host.isDir (names parent) = true)
    (hother : ∀ child ∈ children, components (parent ++ [.name child]) ≠ components safePath)
    (h : Returns (children.forM fun child => removeChild safePath (parent ++ [.name child]))
      s r s') :
    (∀ q, s'.host.kind q =
        if children.any (fun n => names parent ++ [n] <+: q) then none else s.host.kind q) ∧
      s'.pendingWhiteouts = s.pendingWhiteouts := by
  induction children generalizing s with
  | nil =>
    obtain ⟨-, rfl⟩ := returns_pure.mp h
    exact ⟨fun _ => rfl, rfl⟩
  | cons child children ih =>
    obtain ⟨s1, hfirst, hrest⟩ := returns_forM_cons.mp h
    unfold removeChild at hfirst
    rw [if_neg (hother child List.mem_cons_self), returns_readHost_bind] at hfirst
    obtain ⟨found, hfound, hremove⟩ := returns_orIo_bind.mp hfirst
    obtain ⟨hkind, hqueue⟩ := returns_removeFound hup hdir (lstat_name hup hdir hfound) hremove
    have hdir1 : s1.host.isDir (names parent) = true := by
      rw [← kind_eq_dir_iff, hkind, if_neg not_concat_prefix, kind_eq_dir_iff, hdir]
    obtain ⟨hkind', hqueue'⟩ :=
      ih hdir1 (fun n hn => hother n (List.mem_cons_of_mem _ hn)) hrest
    refine ⟨fun q => ?_, hqueue'.trans hqueue⟩
    rw [hkind', hkind, List.any_cons]
    by_cases hpre : names parent ++ [child] <+: q <;> simp [hpre]

theorem components_of_not_mem (hup : up ∉ c) : components c = ofNames (names c) := by
  induction c with
  | nil => rfl
  | cons x c ih =>
    have ih := ih fun hmem => hup (List.mem_cons_of_mem _ hmem)
    cases x with
    | empty | dot => exact ih
    | up => exact absurd List.mem_cons_self hup
    | name n => exact congrArg (name n :: ·) ih

theorem startsWith_of_names (hup : up ∉ c) (hnames : names c = root ++ d) :
    startsWith c (ofNames root) = true := by
  unfold startsWith
  rw [components_ofNames, components_of_not_mem hup, hnames, List.isPrefixOf_iff_prefix]
  unfold ofNames
  rw [List.map_append]
  exact List.prefix_append _ _

/-- The parent of an entry with a name is a place of the root. -/
theorem parentPath_join (root : List String) {e : PathText} (hup : up ∉ e.comps)
    (hnames : names e.comps = d ++ [n]) :
    ∃ parent, parentPath (joinRoot root e) = some parent ∧ names parent = root ++ d ∧
      up ∉ parent := by
  have hjoin : up ∉ joinRoot root e := by
    unfold joinRoot
    rw [List.mem_append, not_or]
    exact ⟨up_not_mem_ofNames root, hup⟩
  have hall : names (joinRoot root e) = root ++ d ++ [n] := by
    rw [joinRoot_names, hnames, List.append_assoc]
  cases hparent : parentPath (joinRoot root e) with
  | none =>
    rw [parentPath_none hparent] at hall
    simp at hall
  | some parent =>
    obtain ⟨⟨m, -, hm⟩, hupParent⟩ := parentPath_some hjoin hparent
    refine ⟨parent, rfl, ?_, hupParent⟩
    exact (List.append_inj' (hm.symm.trans hall) rfl).1

/-- No symlink on the way to a place of the root. -/
theorem straight_of_view (hnames : names c = root ++ d) (hdir : h.isDir root = true)
    (hlinks : ∀ q, q <+: d → ∀ target, viewOf root h q ≠ some (.link target)) :
    h.Straight (names c) := by
  intro q hq
  rw [hnames] at hq
  rcases List.prefix_or_prefix_of_prefix hq (List.prefix_append root d) with hshort | hlong
  · exact Host.Straight.of_isDir hdir q hshort
  · obtain ⟨q, rfl⟩ := hlong
    exact noLink_of_kind (hlinks q ((List.prefix_append_right_inj root).mp hq))

theorem startsWith_child (hup : up ∉ parent) (hnames : names parent = root ++ d) :
    startsWith (parent ++ [.name n]) (ofNames root) = true := by
  refine startsWith_of_names (d := d ++ [n]) (by simp [hup]) ?_
  rw [names_concat, hnames, List.append_assoc]

/-- What a directory holds, read through a path without symlinks. -/
theorem readDir_ok {children : List String} (hup : up ∉ c) (hstraight : h.Straight (names c))
    (hread : h.readDir c = .ok children) :
    h.isDir (names c) = true ∧ children = h.children (names c) := by
  unfold readDir at hread
  split at hread
  next => cases hread
  next p hp =>
    obtain rfl := resolve_eq_names hup hstraight hp
    split at hread
    next hdir => exact ⟨hdir, (Except.ok.inj hread).symm⟩
    next => cases hread

/-- Without its children, a directory has nothing below it. -/
theorem kind_without_children (h : Host) (root d q : List String) :
    (if (h.children (root ++ d)).any (fun n => root ++ d ++ [n] <+: root ++ q) then none
      else h.kind (root ++ q)) = if Beneath d q then none else h.kind (root ++ q) := by
  simp only [List.append_assoc, List.prefix_append_right_inj]
  by_cases hbelow : Beneath d q
  · rw [if_pos hbelow]
    split
    next => rfl
    next hnot =>
      -- the child on the way is not there, so neither is what lies below it
      obtain ⟨⟨rest, rfl⟩, hne⟩ := hbelow
      cases rest with
      | nil => exact absurd (List.append_nil d) hne
      | cons m rest =>
        have hpre : d ++ [m] <+: d ++ m :: rest := ⟨rest, (List.append_cons d m rest).symm⟩
        refine (closed_view root h).none_within hpre ?_
        by_contra hthere
        refine hnot (List.any_eq_true.mpr ⟨m, ?_, decide_eq_true hpre⟩)
        rw [mem_children, ← isSome_kind, List.append_assoc]
        exact Option.isSome_iff_ne_none.mpr hthere
  · rw [if_neg hbelow, if_neg]
    intro hany
    obtain ⟨m, -, hpre⟩ := List.any_eq_true.mp hany
    exact hbelow (Beneath.trans_prefix (beneath_concat.mpr List.prefix_rfl)
      (of_decide_eq_true hpre))

/-- An opaque marker. -/
theorem returns_applyOpaqueMarker {e : PathText} (hup : up ∉ e.comps)
    (hnames : names e.comps = d ++ [n]) (hdir : s.host.isDir root = true)
    (hlinks : ∀ q, q <+: d → ∀ target, viewOf root s.host q ≠ some (.link target))
    (hunmarked : viewOf root s.host (d ++ [n]) = none)
    (h : Returns (applyOpaqueMarker root (joinRoot root e)) s r s') :
    viewOf root s'.host = (Change.opaqueMarker d).apply (viewOf root s.host) ∧
      s'.pendingWhiteouts = s.pendingWhiteouts := by
  obtain ⟨parent, hparent, hnamesParent, hupParent⟩ := parentPath_join root hup hnames
  unfold applyOpaqueMarker at h
  rw [hparent] at h
  simp only [returns_readHost_bind, startsWith_of_names hupParent hnamesParent, Bool.true_and] at h
  split at h
  next =>
    obtain ⟨_, s1, hensure, h⟩ := returns_bind.mp h
    have hsame := alike_ensureExistingDirNoSymlink hensure
    obtain ⟨children, hchildren, h⟩ := returns_orIo_bind.mp h
    obtain ⟨hparentDir, rfl⟩ :=
      readDir_ok hupParent (straight_of_view hnamesParent hdir hlinks) hchildren
    have hdir1 : s1.host.isDir (names parent) = true := by
      rw [← kind_eq_dir_iff, hsame.kinds, kind_eq_dir_iff, hparentDir]
    -- no child is the marker itself, which the host does not have
    have hother : ∀ child ∈ s.host.children (names parent),
        components (parent ++ [.name child]) ≠ components (joinRoot root e) := by
      intro child hchild heq
      have hall := congrArg names heq
      rw [names_components, names_components, names_concat, joinRoot_names, hnames,
        hnamesParent, List.append_assoc] at hall
      rw [mem_children, ← isSome_kind, hnamesParent, List.append_assoc, hall] at hchild
      exact absurd hchild (by rw [show s.host.kind _ = none from hunmarked]; nofun)
    obtain ⟨hkind, hqueue⟩ := returns_removeChildren hupParent hdir1 hother h
    refine ⟨funext fun q => ?_, hqueue.trans hsame.whiteouts⟩
    show s'.host.kind (root ++ q) = if Beneath d q then none else s.host.kind (root ++ q)
    rw [hkind, hsame.kinds, hnamesParent, kind_without_children]
  next hmissing =>
    obtain ⟨-, rfl⟩ := returns_pure.mp h
    refine ⟨funext fun q => ?_, rfl⟩
    show s'.host.kind (root ++ q) = if Beneath d q then none else s'.host.kind (root ++ q)
    split
    next hbelow =>
      -- the directory is not there
      have hnotDir : s'.host.isDir (root ++ d) = false := by
        rw [Bool.eq_false_iff]
        intro hisDir
        refine hmissing ?_
        unfold pathExists
        rw [resolve_of_isDir hupParent (hnamesParent ▸ hisDir)]
        rfl
      refine kind_below_none hnotDir ⟨(List.prefix_append_right_inj root).mpr hbelow.1, ?_⟩
      exact fun heq => hbelow.2 (List.append_cancel_left heq)
    next => rfl

/-- A whiteout is queued if its path is there. -/
theorem returns_queueWhiteout {e : PathText} {stripped : String} (hup : up ∉ e.comps)
    (hnames : names e.comps = d ++ [n]) (hname : ofSegment stripped = .name stripped)
    (hdir : s.host.isDir root = true)
    (hlinks : ∀ q, q <+: d → ∀ target, viewOf root s.host q ≠ some (.link target))
    (h : Returns (queueWhiteout root (joinRoot root e) stripped) s r s') :
    (∀ q, s'.host.kind q = s.host.kind q) ∧ ∃ parent, names parent = root ++ d ∧
      up ∉ parent ∧
      s'.pendingWhiteouts =
        if (viewOf root s.host (d ++ [stripped])).isSome then
          s.pendingWhiteouts ++ [(parent ++ [.name stripped], joinRoot root e)]
        else s.pendingWhiteouts := by
  obtain ⟨parent, hparent, hnamesParent, hupParent⟩ := parentPath_join root hup hnames
  unfold queueWhiteout at h
  rw [hparent] at h
  simp only [returns_readHost_bind] at h
  obtain ⟨_, s1, hcheck, h⟩ := returns_bind.mp h
  -- the check of the parent changes nothing
  have hsame : Alike s s1 := by
    split at hcheck
    · exact alike_ensureExistingDirNoSymlink hcheck
    · exact alike_pure hcheck
  unfold pushWhiteout at h
  rw [hname, startsWith_child hupParent hnamesParent, Bool.true_and,
    isOk_lstat hupParent (straight_of_view hnamesParent hdir hlinks), hnamesParent,
    List.append_assoc] at h
  show _ ∧ ∃ parent, _ ∧ _ ∧ s'.pendingWhiteouts =
    if (s.host.kind (root ++ (d ++ [stripped]))).isSome then _ else _
  split at h
  next hthere =>
    obtain rfl := returns_modify.mp h
    exact ⟨hsame.kinds, parent, hnamesParent, hupParent, by rw [if_pos hthere, ← hsame.whiteouts]⟩
  next hmissing =>
    obtain ⟨-, rfl⟩ := returns_pure.mp h
    exact ⟨hsame.kinds, parent, hnamesParent, hupParent, by rw [if_neg hmissing, hsame.whiteouts]⟩

/-- A queued whiteout removes its path. -/
theorem returns_removeWhiteout (hup : up ∉ parent) (hnames : names parent = root ++ d)
    (hdir : s.host.isDir root = true)
    (hlinks : ∀ q, q <+: d → ∀ target, viewOf root s.host q ≠ some (.link target))
    (h : Returns (removeWhiteout root (parent ++ [.name n], safePath)) s r s') :
    viewOf root s'.host = (viewOf root s.host).drop (d ++ [n]) ∧
      s'.pendingWhiteouts = s.pendingWhiteouts := by
  unfold removeWhiteout at h
  simp only [startsWith_child hup hnames, if_true, returns_readHost_bind] at h
  have hok := isOk_lstat (n := n) hup (straight_of_view hnames hdir hlinks)
  split at h
  next e hlstat =>
    -- nothing is there any more
    obtain ⟨-, rfl⟩ := returns_pure.mp h
    rw [hlstat, hnames, List.append_assoc] at hok
    have hfree : viewOf root s'.host (d ++ [n]) = none := by
      rw [← Option.not_isSome_iff_eq_none]
      exact fun hthere => absurd (hok.trans hthere) Bool.false_ne_true
    refine ⟨funext fun q => ?_, rfl⟩
    unfold View.drop
    split
    next hpre => exact (closed_view root s'.host).none_within hpre hfree
    next => rfl
  next found hlstat =>
    rw [hlstat] at hok
    have hparentDir : s.host.isDir (names parent) = true := by
      refine kind_eq_dir_iff.mp (kind_closed (n := n) ?_)
      exact Option.isSome_iff_ne_none.mp hok.symm
    obtain ⟨hkind, hqueue⟩ :=
      returns_removeFound hup hparentDir (lstat_name hup hparentDir hlstat) h
    refine ⟨funext fun q => ?_, hqueue⟩
    show s'.host.kind (root ++ q) = if d ++ [n] <+: q then none else s.host.kind (root ++ q)
    rw [hkind, hnames, List.append_assoc]
    simp only [List.prefix_append_right_inj]

end

end Denia.Oci
