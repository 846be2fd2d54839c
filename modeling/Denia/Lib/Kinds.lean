/-
  Denia.Lib.Kinds — WHAT STANDS WHERE after a call that has succeeded.

  `Lib.Tree` says what a call leaves alone; here is what it makes: the kind of the node at
  every physical path, as a function of the kinds before.  Modes and owners are not
  looked at, so `chmod` and `lchown` do nothing.

  A path is taken to the directory its names spell: `resolve_of_isDir` holds for paths
  with dots and double slashes in them.
-/
import Denia.Lib.Tree

namespace Denia.Lib.Host

variable {h : Host} {c : List Comp} {p : List String}

/-- What stands at a physical path. -/
def kind (h : Host) (p : List String) : Option Kind := (h.node p).map Node.kind

theorem kind_eq_dir_iff : h.kind p = some .dir ↔ h.isDir p = true := by
  unfold kind isDir Node.isDir
  cases h.node p <;> simp

theorem kind_eq_none_iff : h.kind p = none ↔ h.node p = none := Option.map_eq_none_iff

theorem isSome_kind : (h.kind p).isSome = (h.node p).isSome := Option.isSome_map

theorem noLink_of_kind (hk : ∀ target, h.kind p ≠ some (.link target)) : h.NoLink p := by
  intro n hn
  unfold Node.isLink
  split
  next target hkind =>
    refine absurd ?_ (hk target)
    rw [kind, hn, Option.map_some, hkind]
  next => rfl

theorem NoLink.kind_ne (hp : h.NoLink p) (target : PathText) : h.kind p ≠ some (.link target) := by
  intro hk
  obtain ⟨n, hn, hkind⟩ := Option.map_eq_some_iff.mp hk
  have hlink := hp n hn
  rw [Node.isLink, hkind] at hlink
  cases hlink

variable {n : String} {d : List String} {new : Node}

/-- What is there lies in directories. -/
theorem kind_closed (hk : h.kind (p ++ [n]) ≠ none) : h.kind p = some .dir := by
  cases hn : h.node (p ++ [n]) with
  | none => exact absurd (kind_eq_none_iff.mpr hn) hk
  | some node => exact kind_eq_dir_iff.mpr (isDir_iff.mpr (h.closed p n node hn))

/-! ## §1. Paths of directories. -/

theorem walkFrom_of_isDir {follow : List String → List Comp → Except Errno (List String)}
    {cwd : List String} (hup : Comp.up ∉ c) (hdir : h.isDir (cwd ++ names c) = true) :
    walkFrom h follow cwd c = .ok (cwd ++ names c) := by
  induction c generalizing cwd with
  | nil =>
    rw [walkFrom]
    exact congrArg Except.ok (List.append_nil cwd).symm
  | cons x c ih =>
    have hup' : Comp.up ∉ c := fun hmem => hup (List.mem_cons_of_mem _ hmem)
    cases x with
    | empty => exact ih hup' hdir
    | dot => exact ih hup' hdir
    | up => exact absurd List.mem_cons_self hup
    | name n =>
      have hnames : names (.name n :: c) = n :: names c := rfl
      rw [hnames, List.append_cons] at hdir ⊢
      obtain ⟨d, hd, hisDir⟩ :=
        isDir_iff.mp (isDir_above (List.prefix_append (cwd ++ [n]) (names c)) hdir)
      have hkind : d.kind = .dir := of_decide_eq_true hisDir
      simp only [walkFrom, hd, hkind]
      exact ih hup' hdir

/-- A path without two dots, whose names spell a directory, leads to it. -/
theorem resolve_of_isDir (hup : Comp.up ∉ c) (hdir : h.isDir (names c) = true) :
    h.resolve c = .ok (names c) := by
  obtain ⟨follow, hfollow⟩ := h.walk_eq_walkFrom maxSymlinks
  rw [resolve, hfollow]
  exact walkFrom_of_isDir hup hdir

theorem entryOf_of_isDir (hup : Comp.up ∉ c) (hdir : h.isDir (names c) = true) :
    h.entryOf (c ++ [.name n]) = .ok (names c, n) := by
  unfold entryOf
  rw [List.getLast?_concat, List.dropLast_concat, resolve_of_isDir hup hdir]
  exact if_pos hdir

/-- Without symlinks above it, a name is found exactly if it is there. -/
theorem isOk_lstat (hup : Comp.up ∉ c) (hs : h.Straight (names c)) :
    (h.lstat (c ++ [.name n])).isOk = (h.kind (names c ++ [n])).isSome := by
  by_cases hdir : h.isDir (names c) = true
  · rw [lstat_of_entryOf (entryOf_of_isDir hup hdir), isSome_kind]
    cases h.node (names c ++ [n]) <;> rfl
  · have hfree : h.kind (names c ++ [n]) = none :=
      kind_eq_none_iff.mpr (not_isDir_leaf (Bool.eq_false_iff.mpr hdir) n)
    have hfail : ∀ p, h.lresolve (c ++ [.name n]) ≠ .ok p := by
      intro p hp
      unfold lresolve entryOf at hp
      rw [List.getLast?_concat, List.dropLast_concat] at hp
      cases hres : h.resolve c with
      | error =>
        simp only [hres] at hp
        cases hp
      | ok =>
        rw [resolve_eq_names hup hs hres] at hres
        simp only [hres, if_neg hdir] at hp
        cases hp
    rw [hfree]
    unfold lstat
    cases hl : h.lresolve (c ++ [.name n]) with
    | error => rfl
    | ok p => exact absurd hl (hfail p)

/-! ## §2. Calls. -/

theorem kind_insert (hdir : h.isDir d = true) (hfree : h.node (d ++ [n]) = none) (q : List String) :
    (h.insert d n new hdir hfree).kind q = if q = d ++ [n] then some new.kind else h.kind q := by
  unfold kind node insert
  split
  next hq => rw [hq, AList.lookup_insert, Option.map_some]
  next hq => rw [AList.lookup_insert_ne hq]

theorem kind_update {old : Node} (hold : h.node p = some old)
    (hdir : old.isDir = true → new.isDir = true) (q : List String) :
    (h.update p old new hold hdir).kind q = if q = p then some new.kind else h.kind q := by
  unfold kind node update
  split
  next hq => rw [hq, AList.lookup_insert, Option.map_some]
  next hq => rw [AList.lookup_insert_ne hq]

theorem kind_erase {hleaf : ∀ n, h.node (p ++ [n]) = none} (q : List String) :
    (h.erase p hleaf).kind q = if q = p then none else h.kind q := by
  unfold kind node erase
  split
  next hq => rw [hq, AList.lookup_erase, Option.map_none]
  next hq => rw [AList.lookup_erase_ne hq]

theorem kind_clear (h : Host) (p q : List String) :
    (h.clear p).kind q = if p <+: q ∧ q ≠ p then none else h.kind q := by
  unfold kind
  rw [node_clear]
  split <;> rfl

/-- A node that was made stands in its directory, where nothing stood. -/
theorem make_ok (hok : (h.make c new).result = .ok ()) :
    ∃ d n, h.entryOf c = .ok (d, n) ∧ h.isDir d = true ∧ h.kind (d ++ [n]) = none ∧
      ∀ q, (h.make c new).host.kind q = if q = d ++ [n] then some new.kind else h.kind q := by
  revert hok
  unfold make
  split
  next => rintro ⟨⟩
  next d n hentry =>
    split
    next hdir =>
      split
      next hfree =>
        exact fun _ => ⟨d, n, hentry, hdir, kind_eq_none_iff.mpr hfree, kind_insert hdir hfree⟩
      next => rintro ⟨⟩
    next => rintro ⟨⟩

theorem kind_change (f : Node → Node) (hf : ∀ n : Node, n.isDir = true → (f n).isDir = true)
    (hkind : ∀ n, (f n).kind = n.kind) (q : List String) :
    (h.change p f hf).host.kind q = h.kind q := by
  unfold change
  split
  next => rfl
  next n hnode =>
    rw [kind_update]
    split
    next hq => rw [hkind, hq, kind, hnode, Option.map_some]
    next => rfl

theorem kind_chmod (h : Host) (c : List Comp) (mode : Nat) (q : List String) :
    (h.chmod c mode).host.kind q = h.kind q := by
  unfold chmod
  split
  next => rfl
  next => exact kind_change (fun n => { n with mode := mode }) _ (fun _ => rfl) q

theorem kind_lchown (h : Host) (c : List Comp) (uid gid : Nat) (q : List String) :
    (h.lchown c uid gid).host.kind q = h.kind q := by
  unfold lchown
  split
  next => rfl
  next => exact kind_change (fun n => { n with uid := uid, gid := gid }) _ (fun _ => rfl) q

/-- `unlink` removes what is no directory. -/
theorem kind_unlink (hentry : h.entryOf c = .ok (d, n)) (q : List String) :
    (h.unlink c).host.kind q =
      if q = d ++ [n] ∧ h.isDir (d ++ [n]) = false then none else h.kind q := by
  simp only [unlink, hentry]
  split
  next hnode =>
    split
    next hq => rw [hq.1]; exact kind_eq_none_iff.mpr hnode
    next => rfl
  next node hnode =>
    split
    next hdir => simp only [kind_erase, hdir, and_true]
    next hdir => rw [if_neg fun hq => hdir hq.2]; rfl

/-- `remove_dir_all` removes a directory with all below it. -/
theorem kind_removeDirAll (hentry : h.entryOf c = .ok (d, n)) (hdir : h.isDir (d ++ [n]) = true)
    (q : List String) :
    (h.removeDirAll c).host.kind q = if d ++ [n] <+: q then none else h.kind q := by
  obtain ⟨node, hnode, hisDir⟩ := isDir_iff.mp hdir
  have hkind : node.kind = .dir := of_decide_eq_true hisDir
  have hlast := (entryOf_eq_ok.mp hentry).1
  have htrim : c.rdropWhile (· = .empty) = c := by
    rw [getLast?_split hlast, List.rdropWhile_concat, if_neg (by simp)]
  have hresult : h.rmdirResult c (d ++ [n]) = .ok () := by
    unfold rmdirResult
    simp only [htrim, hlast, hentry, if_true]
  unfold removeDirAll
  simp only [lresolve_of_entryOf hentry, hnode, hkind, hresult]
  rw [kind_erase, kind_clear]
  by_cases hq : q = d ++ [n]
  · simp [hq]
  · simp [hq]

/-- A file that was written stands where no directory and no symlink stood. -/
theorem writeFile_ok {bytes : List UInt8}
    (hleaf : ∀ d n, h.entryOf c = .ok (d, n) → h.NoLink (d ++ [n]))
    (hok : (h.writeFile c bytes).result = .ok ()) :
    ∃ d n, h.entryOf c = .ok (d, n) ∧ h.kind (d ++ [n]) ≠ some .dir ∧
      ∀ q, (h.writeFile c bytes).host.kind q =
        if q = d ++ [n] then some (.file bytes) else h.kind q := by
  revert hok
  unfold writeFile
  split
  next => rintro ⟨⟩
  next d n hcreate =>
    have hentry := createAt_entryOf hleaf hcreate
    split
    next node hnode =>
      split
      next => rintro ⟨⟩
      next hdir =>
        refine fun _ => ⟨d, n, hentry, fun hkind => hdir ?_, kind_update hnode
          fun hn => absurd hn hdir⟩
        obtain ⟨node', hnode', hisDir⟩ := isDir_iff.mp (kind_eq_dir_iff.mp hkind)
        rw [hnode] at hnode'
        exact Option.some.inj hnode' ▸ hisDir
    next hnode =>
      split
      next hdir =>
        refine fun _ => ⟨d, n, hentry, ?_, kind_insert hdir hnode⟩
        rw [kind_eq_none_iff.mpr hnode]
        rintro ⟨⟩
      next => rintro ⟨⟩

/-- Only a path that ends in a name can be written. -/
theorem writeFile_last {bytes : List UInt8} (hok : (h.writeFile c bytes).result = .ok ()) :
    ∃ m, c.getLast? = some (.name m) := by
  unfold writeFile at hok
  split at hok
  next => cases hok
  next d n hcreate =>
    unfold createAt at hcreate
    split at hcreate
    next m hm => exact ⟨m, hm⟩
    next => cases hcreate

/-- A symlink that was made. -/
theorem symlink_ok {target : PathText} (hok : (h.symlink target c).result = .ok ()) :
    ∃ d n, h.entryOf c = .ok (d, n) ∧ h.kind (d ++ [n]) = none ∧
      ∀ q, (h.symlink target c).host.kind q =
        if q = d ++ [n] then some (.link target) else h.kind q := by
  revert hok
  unfold symlink
  split
  next => nofun
  next =>
    split
    next =>
      intro hok
      obtain ⟨d, n, hentry, -, hfree, hkind⟩ := make_ok hok
      exact ⟨d, n, hentry, hfree, hkind⟩
    next => nofun

theorem mem_children : n ∈ h.children p ↔ (h.node (p ++ [n])).isSome = true := by
  unfold children node
  rw [List.mem_filterMap]
  constructor
  · rintro ⟨k, hk, hsome⟩
    split at hsome
    next hboth =>
      have hsplit := List.dropLast_append_getLast? n hsome
      rw [hboth.2] at hsplit
      rwa [hsplit, AList.lookup_isSome]
    next => cases hsome
  · intro hthere
    have hne : p ++ [n] ≠ [] := by simp
    refine ⟨p ++ [n], AList.lookup_isSome.mp hthere, ?_⟩
    rw [if_pos ⟨hne, List.dropLast_concat⟩, List.getLast?_concat]

end Denia.Lib.Host
