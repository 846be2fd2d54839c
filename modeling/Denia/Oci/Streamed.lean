/-
  Denia.Oci.Streamed — THE UNPACKER IS THE STREAM of `Oci.Changeset`: what a layer that was
  applied leaves in the rootfs directory is its entries read as a stream, and a run of
  layers is the reference semantics exactly as far as the layers are faithful.

  Main results: `applyEntry_streamed` and `applyLayer_streamed`, an entry is a step of the
  stream; `unpack_reference_iff`; `unpack_departs_from_reference`.
-/
import Denia.Oci.Confined
import Denia.Oci.Returned

namespace Denia.Oci

open Lib

/-! ## §1. Entries as changes. -/

/-- The name of an opaque marker. -/
def opaqueName : String := ".wh..wh..opq"

/-- The item of an entry that is no whiteout. -/
def Entry.item (e : Entry) : Item :=
  match e.entryType, e.linkName with
  | .directory, _ => .dir
  | .symlink, .ok (some target) => .link target
  | .symlink, _ => .link ⟨false, []⟩
  | .hardlink, .ok (some target) => .hardlink (some (names target.comps)) e.data
  | .hardlink, _ => .hardlink none e.data
  | .regular, _ | .other, _ => .file e.data

/-- An entry, by its path and file name. -/
def Entry.change (e : Entry) : Change :=
  if entryFileName e = opaqueName then .opaqueMarker (names e.path.comps).dropLast
  else
    match stripWhiteout (entryFileName e) with
    | some stripped => .whiteout ((names e.path.comps).dropLast ++ [stripped])
    | none => .add (names e.path.comps) e.item

/-- The changes of the entries that can be read. -/
def changesOf (entries : List (Except String Entry)) : List Change :=
  entries.filterMap fun
    | .ok e => some e.change
    | .error _ => none

/-- The changes of a layer. -/
def LayerBlob.changes (layer : LayerBlob) : List Change := changesOf layer.entries

/-- The entry is a directory, file, symlink, hardlink or whiteout: a whiteout names a file,
and the name of opaque markers is on no other path. -/
def Entry.Ordinary (e : Entry) : Prop :=
  e.entryType ≠ .other ∧
    (∀ stripped ∈ stripWhiteout (entryFileName e), Comp.ofSegment stripped = .name stripped) ∧
    ∀ p ∈ e.change.entryPath, opaqueName ∉ p

variable {lower : View} {layer : LayerBlob}

section
variable {s s' : Unpacker} {r : PUnit} {root : List String}

/-! ## §2. Entries and layers. -/

/-- The unpacker's state as the stream's: a queued path by its names below the root. -/
def streamOf (root : List String) (s : Unpacker) : Stream where
  tree := viewOf root s.host
  queue := s.pendingWhiteouts.map fun w => (names w.1).drop root.length

/-- The root is a directory, and the queued paths lie below it. -/
structure Tidy (root : List String) (s : Unpacker) : Prop where
  rootDir : s.host.isDir root = true
  targets : ∀ w ∈ s.pendingWhiteouts, ∃ parent d n, w.1 = parent ++ [.name n] ∧
    Comp.up ∉ parent ∧ names parent = root ++ d

variable {n : String} {p ns : List String} {cap : Bool} {e : Entry} {T : View}
  {changes : List Change}

theorem drop_names {parent : List Comp} {d : List String} (hnames : names parent = root ++ d) :
    (names (parent ++ [.name n])).drop root.length = d ++ [n] := by
  rw [names_concat, hnames, List.append_assoc, List.drop_left]

/-- An entry that is added keeps the root a directory. -/
theorem isDir_of_add {item : Item} (hdir : s.host.isDir root = true)
    (hallows : Allows (viewOf root s.host) p item)
    (hview : viewOf root s'.host = (Change.add p item).apply (viewOf root s.host)) :
    s'.host.isDir root = true := by
  rw [isDir_iff_view] at hdir ⊢
  rw [hview, Change.apply, Change.touch]
  by_cases hp : [] = p
  · subst hp
    cases item with
    | dir => rfl
    | link => exact absurd rfl hallows.2
    | file bytes | hardlink target bytes => exact absurd hdir hallows.2
  · rw [if_neg hp, if_pos List.nil_prefix]

theorem Alike.isDir (h : Alike s s') (hdir : s.host.isDir p = true) : s'.host.isDir p = true := by
  rw [← Host.kind_eq_dir_iff, h.kinds, Host.kind_eq_dir_iff, hdir]

/-- An entry that is no whiteout. -/
theorem returns_materialize (hup : Comp.up ∉ e.path.comps) (hdir : s.host.isDir root = true)
    (h : Returns (materialize root cap (joinRoot root e.path) e) s r s') :
    Allows (viewOf root s.host) (names e.path.comps) e.item ∧
      viewOf root s'.host =
        (Change.add (names e.path.comps) e.item).apply (viewOf root s.host) ∧
      s'.pendingWhiteouts = s.pendingWhiteouts := by
  have hnames := joinRoot_names root e.path
  have hjoin : Comp.up ∉ joinRoot root e.path := by
    unfold joinRoot
    rw [List.mem_append, not_or]
    exact ⟨up_not_mem_ofNames root, hup⟩
  unfold materialize at h
  split at h
  next htype =>
    obtain ⟨_, s1, hmake, hmode⟩ := returns_bind.mp h
    have hsame := alike_setMode hmode
    have hitem : e.item = .dir := by
      revert htype
      unfold Entry.item
      cases e.entryType <;> simp [EntryType.isDir]
    rw [hitem, hsame.view, hsame.whiteouts]
    exact returns_makeDirectory (e := e) hnames hdir hmake
  next hnotDir =>
    split at h
    next htype =>
      obtain ⟨target, hlink, hrest⟩ := returns_makeSymlink hjoin hnames hdir h
      have hitem : e.item = .link target := by
        revert htype
        unfold Entry.item
        rw [hlink]
        cases e.entryType <;> simp [EntryType.isSymlink]
      rwa [hitem]
    next hnotLink =>
      obtain ⟨_, s1, hwrite, h⟩ := returns_bind.mp h
      obtain ⟨_, s2, hmode, howner⟩ := returns_bind.mp h
      have hsame := (alike_setMode hmode).trans (alike_preservePathOwner howner)
      have hitem : e.item = .file e.data ∨ ∃ target, e.item = .hardlink target e.data := by
        revert hnotDir hnotLink
        unfold Entry.item
        cases e.entryType with
        | directory | symlink => simp [EntryType.isDir, EntryType.isSymlink]
        | regular | other => simp
        | hardlink => rcases e.linkName with _ | _ | target <;> simp
      rw [hsame.view, hsame.whiteouts]
      exact returns_writeEntry hitem hjoin hnames hdir hwrite

/-- A file name is the last name of its path. -/
theorem names_of_fileName {c : List Comp} (h : fileName c = some n) :
    names c = (names c).dropLast ++ [n] := by
  unfold fileName at h
  split at h
  next m hlast =>
    cases h
    have hsplit := congrArg names (Host.getLast?_split hlast)
    rw [names_append, names_trimEnd] at hsplit
    rw [hsplit]
    exact congrArg (· ++ [n]) List.dropLast_concat.symm
  next => cases h

theorem names_of_entryFileName (h : entryFileName e = n) (hne : n ≠ "") :
    names e.path.comps = (names e.path.comps).dropLast ++ [n] := by
  unfold entryFileName at h
  split at h
  · cases hname : fileName e.path.comps with
    | none => exact absurd (hname ▸ h).symm hne
    | some => exact names_of_fileName (by rw [← h, hname]; rfl)
  · exact absurd h.symm hne

/-- **One entry is one step of the stream.** -/
theorem applyEntry_streamed (hs : Tidy root s) (he : e.Ordinary)
    (hlinks : ∀ q ∈ e.change.parents, ∀ target, viewOf root s.host q ≠ some (.link target))
    (hunmarked : ∀ d, viewOf root s.host (d ++ [opaqueName]) = none)
    (h : Returns (applyEntry root cap (.ok e)) s r s') :
    (streamOf root s).step e.change = some (streamOf root s') ∧ Tidy root s' := by
  unfold applyEntry at h
  obtain ⟨e', he', h⟩ := returns_orOther_bind.mp h
  obtain rfl := Except.ok.inj he'
  rw [returns_readHost_bind] at h
  obtain ⟨safePath, hsafe, h⟩ := returns_orThrow_bind.mp h
  obtain ⟨rfl, hup⟩ := safeJoin_ok hsafe
  have hup : Comp.up ∉ e.path.comps := fun hmem => hup (List.mem_append_right _ hmem)
  split at h
  next hmarker =>
    -- an opaque marker empties its directory at once
    have hchange : e.change = .opaqueMarker (names e.path.comps).dropLast := if_pos hmarker
    have hnames := names_of_entryFileName hmarker (by decide)
    rw [hchange] at hlinks ⊢
    obtain ⟨hview, hqueue⟩ := returns_applyOpaqueMarker hup hnames hs.rootDir
      (fun q hq => hlinks q ((List.mem_inits _ _).mpr hq)) (hunmarked _) h
    refine ⟨?_, ?_, ?_⟩
    · unfold streamOf
      rw [hview, hqueue]
      rfl
    · rw [isDir_iff_view, hview]
      exact (if_neg fun hb => hb.2 (List.prefix_nil.mp hb.1).symm).trans
        (isDir_iff_view.mp hs.rootDir)
    · rw [hqueue]
      exact hs.targets
  next hnot =>
    have hnotMarker : entryFileName e ≠ opaqueName := hnot
    split at h
    next stripped hstripped =>
      -- a whiteout is only queued
      have hchange : e.change = .whiteout ((names e.path.comps).dropLast ++ [stripped]) := by
        unfold Entry.change
        rw [if_neg hnotMarker, hstripped]
      have hne : entryFileName e ≠ "" := by
        intro hempty
        rw [hempty] at hstripped
        cases hstripped
      have hnames := names_of_entryFileName rfl hne
      rw [hchange] at hlinks ⊢
      obtain ⟨hkinds, parent, hparent, hupParent, hqueue⟩ := returns_queueWhiteout hup hnames
        (he.2.1 stripped hstripped) hs.rootDir
        (fun q hq => hlinks q (mem_above.mpr (beneath_concat.mpr hq))) h
      have hview : viewOf root s'.host = viewOf root s.host := funext fun q => hkinds (root ++ q)
      refine ⟨?_, by rw [isDir_iff_view, hview, ← isDir_iff_view, hs.rootDir], ?_⟩
      · unfold streamOf Stream.step
        simp only [hview, hqueue]
        split
        next => rw [List.map_append, List.map_singleton, drop_names hparent]
        next => rfl
      · intro w hw
        rw [hqueue] at hw
        split at hw
        · rcases List.mem_append.mp hw with hw | hw
          · exact hs.targets w hw
          · obtain rfl := List.mem_singleton.mp hw
            exact ⟨parent, _, stripped, rfl, hupParent, hparent⟩
        · exact hs.targets w hw
    next hnone =>
      -- anything else is written where it stands
      have hchange : e.change = .add (names e.path.comps) e.item := by
        unfold Entry.change
        rw [if_neg hnotMarker, hnone]
      obtain ⟨_, s1, hcount, h⟩ := returns_bind.mp h
      have hsame := alike_countEntry hcount
      obtain ⟨hallows, hview, hqueue⟩ :=
        returns_materialize hup (hsame.isDir hs.rootDir) h
      have hroot := isDir_of_add (hsame.isDir hs.rootDir) hallows hview
      rw [hsame.view] at hallows hview
      rw [hchange]
      refine ⟨?_, hroot, ?_⟩
      · unfold streamOf Stream.step
        simp only [if_pos hallows, hview, hqueue, hsame.whiteouts]
      · rw [hqueue, hsame.whiteouts]
        exact hs.targets

/-- The symlinks of a tree are those of the lower tree and of the changes, and no path has
the name of opaque markers. -/
structure Plainly (lower : View) (changes : List Change) (T : View) : Prop where
  links : ∀ q target, T q = some (.link target) →
    lower q = some (.link target) ∨ .add q (.link target) ∈ changes
  unmarked : ∀ d, T (d ++ [opaqueName]) = none

section
variable (hT : Plainly lower changes T)
include hT

/-- What can be at a path of another tree. -/
theorem Plainly.of_view {T' : View} (h : ∀ q, T' q = none ∨ T' q = T q ∨ opaqueName ∉ q ∧
      ∀ target, T' q = some (.link target) → .add q (.link target) ∈ changes) :
    Plainly lower changes T' := by
  constructor
  · intro q target hq
    rcases h q with hnone | hsame | ⟨-, hadd⟩
    · cases hnone.symm.trans hq
    · exact hT.links q target (hsame.symm.trans hq)
    · exact .inr (hadd target hq)
  · intro d
    rcases h (d ++ [opaqueName]) with hnone | hsame | ⟨hname, -⟩
    · exact hnone
    · exact hsame.trans (hT.unmarked d)
    · exact absurd (List.mem_append_right _ List.mem_cons_self) hname

theorem Plainly.drop (t : List String) : Plainly lower changes (T.drop t) := by
  refine hT.of_view fun q => ?_
  unfold View.drop
  split <;> simp

theorem Plainly.apply {c : Change} (hc : c ∈ changes) (hname : ∀ p ∈ c.entryPath, opaqueName ∉ p) :
    Plainly lower changes (c.apply T) := by
  cases c with
  | whiteout => exact hT
  | opaqueMarker =>
    refine hT.of_view fun q => ?_
    rw [Change.apply, Change.touch]
    split <;> simp
  | add p item =>
    refine hT.of_view fun q => ?_
    rw [Change.apply, Change.touch]
    split
    next heq =>
      subst heq
      refine .inr (.inr ⟨hname q rfl, fun target hq => ?_⟩)
      cases item with
      | link => exact Kind.link.inj (Option.some.inj hq) ▸ hc
      | dir | file | hardlink => cases hq
    next =>
      split
      next habove =>
        refine .inr (.inr ⟨fun hmem => hname p rfl (habove.subset hmem), ?_⟩)
        rintro _ ⟨⟩
      next => split <;> simp

/-- There is no symlink where the lower tree and the changes have none. -/
theorem Plainly.not_link {q : List String} {target : PathText}
    (h : lower q ≠ some (.link target) ∧ .add q (.link target) ∉ changes) :
    T q ≠ some (.link target) := by
  intro hlink
  rcases hT.links q target hlink with hl | hl
  · exact h.1 hl
  · exact h.2 hl

end

/-- **The entries of a layer are the stream.** -/
theorem entries_streamed {entries : List (Except String Entry)}
    (hentries : ∀ e, .ok e ∈ entries → e.Ordinary ∧ e.change ∈ changes)
    (hparents : ∀ c ∈ changes, ∀ q ∈ c.parents,
      ∀ target, lower q ≠ some (.link target) ∧ .add q (.link target) ∉ changes)
    (hs : Tidy root s) (hview : Plainly lower changes (viewOf root s.host))
    (h : Returns (entries.forM (applyEntry root cap)) s r s') :
    exec Stream.step (streamOf root s) (changesOf entries) = some (streamOf root s') ∧
      Tidy root s' ∧ Plainly lower changes (viewOf root s'.host) := by
  induction entries generalizing s with
  | nil =>
    obtain ⟨-, rfl⟩ := returns_pure.mp h
    exact ⟨rfl, hs, hview⟩
  | cons x entries ih =>
    obtain ⟨s1, hfirst, hrest⟩ := returns_forM_cons.mp h
    cases x with
    | error =>
      unfold applyEntry at hfirst
      obtain ⟨e, he, -⟩ := returns_orOther_bind.mp hfirst
      cases he
    | ok e =>
      obtain ⟨he, hmem⟩ := hentries e List.mem_cons_self
      obtain ⟨hstep, hs1⟩ := applyEntry_streamed hs he
        (fun q hq target => hview.not_link (hparents _ hmem q hq target)) hview.unmarked hfirst
      have htree : viewOf root s1.host = e.change.apply (viewOf root s.host) :=
        funext (step_tree hstep)
      have hview1 : Plainly lower changes (viewOf root s1.host) := by
        rw [htree]
        exact hview.apply hmem he.2.2
      obtain ⟨hexec, hs', hview'⟩ :=
        ih (fun e' he' => hentries e' (List.mem_cons_of_mem _ he')) hs1 hview1 hrest
      refine ⟨?_, hs', hview'⟩
      show (Stream.step (streamOf root s) e.change).bind _ = _
      rwa [hstep]

/-- The queued whiteouts, one after the other. -/
theorem whiteouts_streamed {whiteouts : List (List Comp × List Comp)}
    (htargets : ∀ w ∈ whiteouts, ∃ parent d n, w.1 = parent ++ [.name n] ∧
      Comp.up ∉ parent ∧ names parent = root ++ d ∧ ∀ q, q <+: d → ∀ target,
        lower q ≠ some (.link target) ∧ .add q (.link target) ∉ changes)
    (hdir : s.host.isDir root = true) (hview : Plainly lower changes (viewOf root s.host))
    (h : Returns (whiteouts.forM (removeWhiteout root)) s r s') : viewOf root s'.host =
        (whiteouts.map fun w => (names w.1).drop root.length).foldl View.drop
          (viewOf root s.host) ∧
      s'.host.isDir root = true := by
  induction whiteouts generalizing s with
  | nil =>
    obtain ⟨-, rfl⟩ := returns_pure.mp h
    exact ⟨rfl, hdir⟩
  | cons w whiteouts ih =>
    obtain ⟨s1, hfirst, hrest⟩ := returns_forM_cons.mp h
    obtain ⟨parent, d, n, hw, hup, hnames, hclear⟩ := htargets w List.mem_cons_self
    obtain ⟨_, safePath⟩ := w
    obtain rfl : _ = parent ++ [.name n] := hw
    obtain ⟨hdrop, -⟩ := returns_removeWhiteout hup hnames hdir
      (fun q hq target => hview.not_link (hclear q hq target)) hfirst
    have hdir1 : s1.host.isDir root = true := by
      rw [isDir_iff_view, hdrop]
      exact (if_neg fun hpre => by simpa using List.prefix_nil.mp hpre).trans
        (isDir_iff_view.mp hdir)
    obtain ⟨hrest, hdir'⟩ := ih (fun w' hw' => htargets w' (List.mem_cons_of_mem _ hw')) hdir1
      (hdrop ▸ hview.drop _) hrest
    refine ⟨?_, hdir'⟩
    rw [hrest, hdrop, List.map_cons, List.foldl_cons, drop_names hnames]

/-- The layers the reference is about: entries of the five kinds, each path once, and no
symlink above a path. -/
structure LayerBlob.Ordinary (lower : View) (layer : LayerBlob) : Prop where
  entries : ∀ e, .ok e ∈ layer.entries → e.Ordinary
  described : Described lower layer.changes

/-- **A layer that was applied** leaves what its changes, read as a stream, make of the tree. -/
theorem applyLayer_streamed (hlayer : layer.Ordinary (viewOf root s.host))
    (hdir : s.host.isDir root = true)
    (hunmarked : ∀ d, viewOf root s.host (d ++ [opaqueName]) = none)
    (h : Returns (applyLayer root cap layer) s r s') :
    streamed (viewOf root s.host) layer.changes = some (viewOf root s'.host) ∧
      s'.host.isDir root = true := by
  unfold applyLayer at h
  obtain ⟨_, -, h⟩ := returns_orOther_bind.mp h
  rw [returns_modify_bind] at h
  obtain ⟨_, s1, hentries, h⟩ := returns_bind.mp h
  have hfresh : Tidy root s.fresh := ⟨hdir, fun _ hw => absurd hw List.not_mem_nil⟩
  have hplain : Plainly (viewOf root s.host) layer.changes (viewOf root s.fresh.host) :=
    ⟨fun _ _ hlink => .inl hlink, hunmarked⟩
  have hmem : ∀ e, .ok e ∈ layer.entries → e.Ordinary ∧ e.change ∈ layer.changes := by
    intro e he
    exact ⟨hlayer.entries e he, List.mem_filterMap.mpr ⟨_, he, rfl⟩⟩
  obtain ⟨hexec, hs1, hview1⟩ :=
    entries_streamed hmem hlayer.described.parents hfresh hplain hentries
  unfold finishLayer at h
  rw [returns_get_bind] at h
  obtain ⟨_, s2, howners, hwhiteouts⟩ := returns_bind.mp h
  have hsame := alike_forM (fun _ _ _ _ => alike_chownDirectory) howners
  -- what is queued is the path of a whiteout, whose parents are no symlinks
  have htargets : ∀ w ∈ s1.pendingWhiteouts, ∃ parent d n, w.1 = parent ++ [.name n] ∧
      Comp.up ∉ parent ∧ names parent = root ++ d ∧ ∀ q, q <+: d → ∀ target,
        viewOf root s.host q ≠ some (.link target) ∧
          .add q (.link target) ∉ layer.changes := by
    intro w hw
    obtain ⟨parent, d, n, hpath, hup, hnames⟩ := hs1.targets w hw
    refine ⟨parent, d, n, hpath, hup, hnames, fun q hq => ?_⟩
    have hqueued : d ++ [n] ∈ (streamOf root s1).queue := by
      refine List.mem_map.mpr ⟨w, hw, ?_⟩
      rw [hpath]
      exact drop_names hnames
    rcases (mem_queue hexec _).mp hqueued with hnil | ⟨before, after, hsplit, -⟩
    · cases hnil
    · refine hlayer.described.parents (.whiteout (d ++ [n])) ?_ q
        (mem_above.mpr (beneath_concat.mpr hq))
      show _ ∈ changesOf layer.entries
      rw [hsplit]
      exact List.mem_append_right _ List.mem_cons_self
  obtain ⟨hfinish, hdir'⟩ := whiteouts_streamed htargets (hsame.isDir hs1.rootDir)
    (by rw [hsame.view]; exact hview1) hwhiteouts
  refine ⟨?_, hdir'⟩
  unfold streamed
  have hstart : streamOf root s.fresh = ⟨viewOf root s.host, []⟩ := rfl
  rw [← hstart]
  show (exec Stream.step (streamOf root s.fresh) (changesOf layer.entries)).map _ = _
  rw [hexec, Option.map_some, hfinish, hsame.view]
  rfl

/-! ## §3. Lists of layers. -/

/-- The tree a list of layers starts from; the root directory is made if it is missing. -/
def lowerOf (root : List String) (h : Host) : View := fun q =>
  if q = [] then some .dir else viewOf root h q

theorem make_error {h : Host} {c : List Comp} {new : Node} {e : Errno}
    (herr : (h.make c new).result = .error e) : (h.make c new).host = h := by
  revert herr
  unfold Host.make
  repeat' split
  all_goals first | exact fun _ => rfl | rintro ⟨⟩

/-- A directory that `create_dir_all` found, or has made where nothing stood. -/
theorem returns_orIsDir {t : Unpacker} {e : Errno} (hhost : t.host = s.host)
    (hstraight : s.host.Straight ns) (h : Returns (orIsDir (ofNames ns) e) t r s') :
    s'.host = s.host ∧ s.host.isDir ns = true := by
  unfold orIsDir at h
  rw [returns_readHost_bind, hhost] at h
  split at h
  next hisDir =>
    obtain ⟨-, rfl⟩ := returns_pure.mp h
    refine ⟨hhost, ?_⟩
    unfold isDirAt at hisDir
    split at hisDir
    next p hp =>
      have hnames := Host.resolve_eq_names (up_not_mem_ofNames ns)
        (by rw [names_ofNames]; exact hstraight) hp
      rwa [hnames, names_ofNames] at hisDir
    next => cases hisDir
  next => exact absurd h returns_throw

theorem mkdir_ok {h : Host} (hstraight : h.Straight (ns ++ [n]))
    (hok : (h.mkdir (ofNames (ns ++ [n]))).result = .ok ()) :
    ∀ q, (h.mkdir (ofNames (ns ++ [n]))).host.kind q =
      if q = ns ++ [n] then some .dir else h.kind q := by
  obtain ⟨d, m, hentry, -, -, hkind⟩ := Host.make_ok hok
  have hnames : d ++ [m] = ns ++ [n] := by
    rw [Host.entryOf_eq_names (up_not_mem_dropLast (up_not_mem_ofNames _)) ?_ hentry, names_ofNames]
    rw [ofNames_concat, List.dropLast_concat, names_ofNames]
    exact hstraight.mono (List.prefix_append ns [n])
  rwa [hnames] at hkind

/-- `create_dir_all`, on a path without symlinks: the directory is there, and what is
elsewhere, below it in particular, is as it was. -/
theorem returns_createDirAll {rev : List String} (hstraight : s.host.Straight rev.reverse)
    (hroot : s.host.isDir [] = true) (h : Returns (createDirAll rev) s r s') :
    s'.host.isDir rev.reverse = true ∧
      ∀ q, ¬ q <+: rev.reverse → s'.host.kind q = s.host.kind q := by
  induction rev generalizing s r s' with
  | nil =>
    obtain ⟨-, rfl⟩ := returns_pure.mp h
    exact ⟨hroot, fun _ _ => rfl⟩
  | cons n parents ih =>
    have hpath : (n :: parents).reverse = parents.reverse ++ [n] := List.reverse_cons
    rw [hpath] at hstraight ⊢
    unfold createDirAll at h
    simp only [hpath, returns_perform_bind] at h
    -- one `mkdir` that succeeded
    have hmade : ∀ {t : Unpacker}, t.host.Straight (parents.reverse ++ [n]) →
        (t.host.mkdir (ofNames (parents.reverse ++ [n]))).result = .ok () →
        (t.host.mkdir (ofNames (parents.reverse ++ [n]))).host.isDir
            (parents.reverse ++ [n]) = true ∧
          ∀ q, ¬ q <+: parents.reverse ++ [n] →
            (t.host.mkdir (ofNames (parents.reverse ++ [n]))).host.kind q = t.host.kind q := by
      intro t ht hok
      have hkind := mkdir_ok ht hok
      refine ⟨Host.kind_eq_dir_iff.mp ?_, fun q hq => ?_⟩
      · rw [hkind, if_pos rfl]
      · rw [hkind, if_neg]
        rintro rfl
        exact hq List.prefix_rfl
    split at h
    next hok =>
      obtain ⟨-, rfl⟩ := returns_pure.mp h
      exact hmade hstraight hok
    next herr =>
      obtain ⟨_, s1, hparents, h⟩ := returns_bind.mp h
      have hhost : (s.traced .createDir
          (s.host.mkdir (ofNames (parents.reverse ++ [n])))).host = s.host := make_error herr
      obtain ⟨hparentDir, hkind1⟩ := ih
        (by rw [hhost]; exact hstraight.mono (List.prefix_append _ [n]))
        (by rw [hhost]; exact hroot) hparents
      rw [hhost] at hkind1
      have hstraight1 : s1.host.Straight (parents.reverse ++ [n]) := by
        intro q hq
        rcases List.prefix_concat_iff.mp hq with rfl | hq
        · refine Host.noLink_of_kind fun target => ?_
          rw [hkind1 _ not_concat_prefix]
          exact (hstraight _ List.prefix_rfl).kind_ne target
        · exact Host.Straight.of_isDir hparentDir q hq
      have helse : ∀ q, ¬ q <+: parents.reverse ++ [n] → s1.host.kind q = s.host.kind q :=
        fun q hq => hkind1 q fun hpre => hq (hpre.trans (List.prefix_append _ [n]))
      rw [returns_perform_bind] at h
      split at h
      next hok =>
        obtain ⟨-, rfl⟩ := returns_pure.mp h
        obtain ⟨hdir, hkind⟩ := hmade hstraight1 hok
        exact ⟨hdir, fun q hq => (hkind q hq).trans (helse q hq)⟩
      next e herr' =>
        obtain ⟨hsame, hdir⟩ := returns_orIsDir (make_error herr') hstraight1 h
        rw [hsame]
        exact ⟨hdir, helse⟩
    next e _ herr =>
      obtain ⟨hsame, hdir⟩ := returns_orIsDir (make_error herr) hstraight h
      rw [hsame]
      exact ⟨hdir, fun _ _ => rfl⟩

/-- The tree after `create_dir_all`. -/
theorem viewOf_createDirAll (hstraight : s.host.Straight root) (htop : s.host.isDir [] = true)
    (h : Returns (createDirAll root.reverse) s r s') :
    s'.host.isDir root = true ∧ viewOf root s'.host = lowerOf root s.host := by
  rw [← root.reverse_reverse] at hstraight
  obtain ⟨hdir, hkind⟩ := returns_createDirAll hstraight htop h
  rw [List.reverse_reverse] at hdir hkind
  refine ⟨hdir, funext fun q => ?_⟩
  unfold viewOf lowerOf viewOf
  by_cases hq : q = []
  · rw [if_pos hq, hq, List.append_nil]
    exact Host.kind_eq_dir_iff.mpr hdir
  · rw [if_neg hq, hkind]
    intro hpre
    have hlen := hpre.length_le
    rw [List.length_append] at hlen
    exact hq (List.eq_nil_of_length_eq_zero (by omega))

/-- The reference has no path with the marker's name. -/
theorem reference_unmarked {R : View} (hentries : ∀ e, .ok e ∈ layer.entries → e.Ordinary)
    (hlower : ∀ d, lower (d ++ [opaqueName]) = none) (hR : reference lower layer.changes = some R)
    (d : List String) : R (d ++ [opaqueName]) = none := by
  have hnone : ∀ p item, .add p item ∈ layer.changes → ¬ d ++ [opaqueName] <+: p := by
    intro p item hmem hpre
    obtain ⟨x, hx, hchange⟩ := List.mem_filterMap.mp hmem
    cases x with
    | error => cases hchange
    | ok e =>
      have hname := (hentries e hx).2.2
      rw [Option.some.inj hchange] at hname
      exact hname p rfl (hpre.subset (List.mem_append_right _ List.mem_cons_self))
  unfold reference at hR
  split at hR <;> cases hR
  rw [linked_bare]
  · rw [if_neg]
    · split
      · rfl
      · exact hlower d
    · intro hany
      obtain ⟨p, item, hmem, hbelow⟩ := any_addsBelow.mp hany
      exact hnone p item hmem hbelow.1
  · cases hitem : itemAt layer.changes (d ++ [opaqueName]) with
    | none => rfl
    | some item => exact absurd List.prefix_rfl (hnone _ item (mem_of_itemAt hitem))

/-- One layer after another, by the reference. -/
def referenceStep (lower : View) (layer : LayerBlob) : Option View := reference lower layer.changes

/-- Layers, one after another, from a tree that is the reference's so far. -/
theorem layers_reference_iff {layers : List LayerBlob}
    (hlayers : Guarded referenceStep (fun T layer => layer.Ordinary T) T layers)
    (hview : viewOf root s.host = T) (hdir : s.host.isDir root = true)
    (hunmarked : ∀ d, T (d ++ [opaqueName]) = none)
    (h : Returns (layers.forM (applyLayer root cap)) s r s') :
    (∀ before after t, layers = before ++ after →
        Returns (before.forM (applyLayer root cap)) s ⟨⟩ t →
        exec referenceStep T before = some (viewOf root t.host)) ↔
      Guarded referenceStep (fun T layer => Faithful T layer.changes) T layers := by
  subst hview
  induction layers generalizing s with
  | nil =>
    refine ⟨fun _ => trivial, fun _ before after t hsplit ht => ?_⟩
    obtain ⟨rfl, -⟩ := List.append_eq_nil_iff.mp hsplit.symm
    obtain ⟨-, rfl⟩ := returns_pure.mp ht
    rfl
  | cons layer layers ih =>
    obtain ⟨s1, hfirst, hrest⟩ := returns_forM_cons.mp h
    obtain ⟨hstream, hdir1⟩ := applyLayer_streamed hlayers.1 hdir hunmarked hfirst
    have hiff := streamed_eq_reference_iff (closed_view root s.host) hlayers.1.described hstream
    -- the rest, once the first layer is the reference
    have hnext (href : referenceStep (viewOf root s.host) layer = some (viewOf root s1.host)) :=
      ih hdir1 hrest (hlayers.2 _ href) (reference_unmarked hlayers.1.entries hunmarked href)
    constructor
    · intro hall
      have href : referenceStep (viewOf root s.host) layer = some (viewOf root s1.host) := by
        have hone := hall [layer] layers s1 rfl
          (returns_forM_cons.mpr ⟨s1, hfirst, returns_pure.mpr ⟨rfl, rfl⟩⟩)
        obtain ⟨T, hT, hdone⟩ := exec_cons hone
        exact hT.trans hdone
      refine ⟨hiff.mp href, fun T hT => ?_⟩
      obtain rfl := Option.some.inj (href.symm.trans hT)
      refine (hnext href).mp fun before after t hsplit ht => ?_
      have hmore := hall (layer :: before) after t (by rw [hsplit]; rfl)
        (returns_forM_cons.mpr ⟨s1, hfirst, ht⟩)
      obtain ⟨T, hT, hdone⟩ := exec_cons hmore
      obtain rfl := Option.some.inj (href.symm.trans hT)
      exact hdone
    · rintro ⟨hfaithful, hguarded⟩ before after t hsplit ht
      have href := hiff.mpr hfaithful
      cases before with
      | nil =>
        obtain ⟨-, rfl⟩ := returns_pure.mp ht
        rfl
      | cons b before =>
        obtain ⟨rfl, hsplit'⟩ := List.cons.inj hsplit
        obtain ⟨t1, hfirst', hmore⟩ := returns_forM_cons.mp ht
        obtain rfl : s1 = t1 := (Prod.mk.inj (hfirst.symm.trans hfirst')).2
        show (referenceStep _ layer).bind _ = _
        rw [show referenceStep _ layer = _ from href]
        exact (hnext href).mpr (hguarded _ href) before after t hsplit' hmore

/-- **Layer application and the changeset rules.**  For every list of layers of directory,
file, symlink, hardlink and whiteout entries, each path given once in a layer and none
below a symlink, that `unpack` applies: the tree after each of them is the one of the
reference if and only if each layer is faithful. -/
theorem unpack_reference_iff {cap : Bool} {layers : List LayerBlob} {h : Host} {t : Unpacker}
    (hstraight : h.Straight root) (htop : h.isDir [] = true)
    (hunmarked : ∀ d, lowerOf root h (d ++ [opaqueName]) = none)
    (hlayers : Guarded referenceStep (fun T layer => layer.Ordinary T) (lowerOf root h) layers)
    (hok : Returns (unpack root cap layers) (.start h) ⟨⟩ t) :
    (∀ before after u, layers = before ++ after →
        Returns (unpack root cap before) (.start h) ⟨⟩ u →
        exec referenceStep (lowerOf root h) before = some (viewOf root u.host)) ↔
      Guarded referenceStep (fun T layer => Faithful T layer.changes) (lowerOf root h) layers := by
  unfold unpack at hok ⊢
  obtain ⟨_, s, hcreate, hok⟩ := returns_bind.mp hok
  obtain ⟨hdir, hview⟩ := viewOf_createDirAll hstraight htop hcreate
  rw [← layers_reference_iff hlayers hview hdir hunmarked hok]
  constructor
  · intro hall before after u hsplit hu
    exact hall before after u hsplit (returns_bind.mpr ⟨_, s, hcreate, hu⟩)
  · intro hall before after u hsplit hu
    obtain ⟨_, s1, hcreate', hu⟩ := returns_bind.mp hu
    obtain rfl : s = s1 := (Prod.mk.inj (hcreate.symm.trans hcreate')).2
    exact hall before after u hsplit hu

end

/-! ## §4. Layers that are not faithful. -/

instance (e : Entry) : Decidable e.Ordinary := inferInstanceAs (Decidable (_ ∧ _ ∧ _))

instance (lower : View) (changes : List Change) : Decidable (Faithful lower changes) :=
  inferInstanceAs (Decidable (_ = true))

/-- A symlink. -/
def isLinkKind : Kind → Bool
  | .link _ => true
  | _ => false

/-- No symlink is at a path, in the lower tree or in the layer. -/
def linkFreeAt (lower : View) (changes : List Change) (q : List String) : Bool :=
  (lower q).all (fun k => !isLinkKind k) && changes.all fun
    | .add p item => !(p == q && isLinkKind item.made)
    | _ => true

/-- The conditions on a layer, tried. -/
def testOrdinary (lower : View) (layer : LayerBlob) : Bool :=
  (layer.entries.all fun
      | .ok e => e.Ordinary
      | .error _ => true) &&
    decide (layer.changes.filterMap Change.entryPath).Nodup &&
    layer.changes.all fun c => c.parents.all (linkFreeAt lower layer.changes)

theorem ordinary_of_test (h : testOrdinary lower layer = true) : layer.Ordinary lower := by
  unfold testOrdinary at h
  rw [Bool.and_eq_true, Bool.and_eq_true, decide_eq_true_iff, List.all_eq_true,
    List.all_eq_true] at h
  obtain ⟨⟨hentries, honce⟩, hparents⟩ := h
  refine ⟨fun e he => of_decide_eq_true (hentries _ he), honce, ?_⟩
  intro c hc q hq target
  have hfree := List.all_eq_true.mp (hparents c hc) q hq
  unfold linkFreeAt at hfree
  rw [Bool.and_eq_true, List.all_eq_true] at hfree
  constructor
  · intro hlower
    rw [hlower] at hfree
    cases hfree.1
  · intro hmem
    have hnot := hfree.2 _ hmem
    simp [isLinkKind, Item.made] at hnot

/-- A file entry with data. -/
def fileAt (path : String) (data : List UInt8) : Entry :=
  { entryAt path .regular none with data, entrySize := .ok data.length }

/-- A file and a hardlink to it. -/
def hardlinkLayers : List LayerBlob :=
  [layerOf [fileAt "a" [1], entryAt "b" .hardlink (some "a")]]

/-- A directory with a file, and then its opaque marker. -/
def lateMarkerLayers : List LayerBlob :=
  [layerOf [entryAt "d/" .directory none, fileAt "d/x" [1],
    entryAt "d/.wh..wh..opq" .regular none]]

/-- A file, and a layer that replaces it: a whiteout and a file of the same path. -/
def replacedLayers : List LayerBlob :=
  [layerOf [fileAt "f" [1]], layerOf [entryAt ".wh.f" .regular none, fileAt "f" [2]]]

/-- What `unpack` leaves at a path, if it returns. -/
def unpackedAt (layers : List LayerBlob) (p : List String) : Option (Option Kind) :=
  match runProg (unpack rootfs true layers) (Unpacker.start serverHost) with
  | (.ok _, s) => some (viewOf rootfs s.host p)
  | (.error _, _) => none

/-- What the reference has there. -/
def referenceAt (layers : List LayerBlob) (p : List String) : Option (Option Kind) :=
  (exec referenceStep (lowerOf rootfs serverHost) layers).map fun T => T p

/-- The layers are of the kinds the reference is about. -/
def ordinaryLayers (layers : List LayerBlob) : Bool :=
  checked referenceStep testOrdinary (lowerOf rootfs serverHost) layers

/-- **Unpacking departs from the changeset rules.**  A hardlink becomes an empty file, an
opaque marker removes the entry of its own layer that was read before it, and a whiteout
removes the entry that replaces its path. -/
theorem unpack_departs_from_reference : (ordinaryLayers hardlinkLayers = true ∧
      unpackedAt hardlinkLayers ["b"] = some (some (.file [])) ∧
      referenceAt hardlinkLayers ["b"] = some (some (.file [1]))) ∧
    (ordinaryLayers lateMarkerLayers = true ∧
      unpackedAt lateMarkerLayers ["d", "x"] = some none ∧
      referenceAt lateMarkerLayers ["d", "x"] = some (some (.file [1]))) ∧
    ordinaryLayers replacedLayers = true ∧
      unpackedAt replacedLayers ["f"] = some none ∧
      referenceAt replacedLayers ["f"] = some (some (.file [2])) := by
  decide +kernel

/-- A layer with an empty file, a hardlink to it and a symlink, and one whose markers come
first. -/
def mergedLayers : List LayerBlob :=
  [layerOf [entryAt "usr/" .directory none, fileAt "usr/a" [],
      entryAt "usr/b" .hardlink (some "usr/a"), entryAt "lib" .symlink (some "usr/lib")],
    layerOf [entryAt "usr/.wh..wh..opq" .regular none, entryAt ".wh.lib" .regular none,
      fileAt "usr/c" [7]]]

theorem unpack_reference_merged : unpackedAt mergedLayers ["usr", "c"] = some (some (.file [7])) ∧
      ∀ before after u, mergedLayers = before ++ after →
        Returns (unpack rootfs true before) (.start serverHost) ⟨⟩ u →
        exec referenceStep (lowerOf rootfs serverHost) before = some (viewOf rootfs u.host) := by
  have hunpacked : unpackedAt mergedLayers ["usr", "c"] = some (some (.file [7])) := by
    decide +kernel
  obtain ⟨t, ht⟩ : ∃ t, Returns (unpack rootfs true mergedLayers) (.start serverHost) ⟨⟩ t := by
    unfold unpackedAt at hunpacked
    split at hunpacked
    next s hs => exact ⟨s, hs⟩
    next => cases hunpacked
  have hdir : serverHost.isDir rootfs = true := by decide +kernel
  have hkeys : ∀ k ∈ serverHost.nodes.keys, opaqueName ∉ k := by decide +kernel
  have hunmarked : ∀ d, lowerOf rootfs serverHost (d ++ [opaqueName]) = none := by
    intro d
    unfold lowerOf viewOf
    rw [if_neg (by simp), Host.kind_eq_none_iff]
    by_contra hthere
    refine hkeys _ (AList.lookup_isSome.mp (Option.isSome_iff_ne_none.mpr hthere)) ?_
    exact List.mem_append_right _ (List.mem_append_right _ List.mem_cons_self)
  have htest : ∀ T layer, decide (Faithful T (LayerBlob.changes layer)) = true →
      Faithful T layer.changes := fun _ _ => of_decide_eq_true
  refine ⟨hunpacked, (unpack_reference_iff (Host.Straight.of_isDir hdir) (by decide +kernel)
    hunmarked ?_ ht).mpr ?_⟩
  · exact guarded_of_checked (fun _ _ => ordinary_of_test) (by decide +kernel)
  · exact guarded_of_checked htest (by decide +kernel)

end Denia.Oci
