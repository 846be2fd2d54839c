/-
  Denia.Lib.Tree — a host's directories, files and symlinks, and how the kernel finds a
  node by its path.

  A node is known by its PHYSICAL path, the list of names from the root that passes
  through directories only; that every node lies in a directory is a field of the type.
  `resolve` follows every symlink of a path, `lresolve` does not follow the last name.
  `walk_noLink` is what confinement rests on: a walk that meets no symlink ends where its
  names say.
-/
import Mathlib.Data.List.AList
import Denia.Lib.AssocMap
import Denia.Lib.Path

namespace Denia.Lib

/-- What a node is. -/
inductive Kind where
  | dir
  | file (bytes : List UInt8)
  | link (target : PathText)
  deriving DecidableEq

/-- What stands at a path. -/
structure Node where
  kind : Kind
  mode : Nat
  uid : Nat
  gid : Nat

/-- A directory. -/
def Node.isDir (n : Node) : Bool := n.kind = .dir

/-- A symlink. -/
def Node.isLink (n : Node) : Bool :=
  match n.kind with
  | .link _ => true
  | _ => false

/-- The errors of the calls. -/
inductive Errno where
  | noent
  | notdir
  | exist
  | isdir
  | loop
  | inval
  | notempty

/-- The nodes by physical path; every node but the root lies in a directory. -/
structure Host where
  nodes : AList fun _ : List String => Node
  closed : ∀ p n node, nodes.lookup (p ++ [n]) = some node →
    ∃ d, nodes.lookup p = some d ∧ d.isDir = true

namespace Host

/-- What stands there. -/
def node (h : Host) (p : List String) : Option Node := h.nodes.lookup p

/-- A directory stands there. -/
def isDir (h : Host) (p : List String) : Bool := (h.node p).any Node.isDir

variable {h : Host} {p : List String}

theorem isDir_iff : h.isDir p = true ↔ ∃ d, h.node p = some d ∧ d.isDir = true := by
  unfold isDir
  cases h.node p <;> simp

/-- No symlink stands there. -/
def NoLink (h : Host) (p : List String) : Prop := ∀ n, h.node p = some n → n.isLink = false

theorem noLink_iff : (h.node p).all (fun n => !n.isLink) = true ↔ h.NoLink p := by
  unfold NoLink
  cases h.node p <;> simp

instance (h : Host) (p : List String) : Decidable (h.NoLink p) :=
  decidable_of_iff _ noLink_iff

/-- The nodes lying in a directory, by name. -/
def children (h : Host) (p : List String) : List String :=
  h.nodes.keys.filterMap fun k => if k ≠ [] ∧ k.dropLast = p then k.getLast? else none

/-! ## §1. Resolution. -/

/-- Walk the segments from a directory; `follow` goes on through a symlink. -/
def walkFrom (h : Host) (follow : List String → List Comp → Except Errno (List String)) :
    List String → List Comp → Except Errno (List String)
  | cwd, [] => .ok cwd
  | cwd, .empty :: rest => walkFrom h follow cwd rest
  | cwd, .dot :: rest => walkFrom h follow cwd rest
  | cwd, .up :: rest => walkFrom h follow cwd.dropLast rest
  | cwd, .name n :: rest =>
      match h.node (cwd ++ [n]) with
      | none => .error .noent
      | some node =>
          match node.kind with
          | .dir => walkFrom h follow (cwd ++ [n]) rest
          | .file _ => if rest = [] then .ok (cwd ++ [n]) else .error .notdir
          | .link target =>
              follow (if target.absolute then [] else cwd) (target.comps ++ rest)

/-- The walk, with a bound on the symlinks it may still follow. -/
def walk (h : Host) : Nat → List String → List Comp → Except Errno (List String)
  | 0 => walkFrom h fun _ _ => .error .loop
  | links + 1 => walkFrom h (walk h links)

/-- The kernel's bound on symlinks in one path. -/
def maxSymlinks : Nat := 40

/-- The physical path of an absolute path, every symlink followed. -/
def resolve (h : Host) (c : List Comp) : Except Errno (List String) := h.walk maxSymlinks [] c

/-- The directory and the name a path ends in; the name is not looked at. -/
def entryOf (h : Host) (c : List Comp) : Except Errno (List String × String) :=
  match c.getLast? with
  | some (.name n) =>
      match h.resolve c.dropLast with
      | .error e => .error e
      | .ok d => if h.isDir d then .ok (d, n) else .error .notdir
  | _ => .error .inval

/-- The physical path, with the last name not followed.  A path that ends in a slash, a dot
or two dots has no last name. -/
def lresolve (h : Host) (c : List Comp) : Except Errno (List String) :=
  match c.getLast? with
  | some (.name _) =>
      match h.entryOf c with
      | .error e => .error e
      | .ok (d, n) => .ok (d ++ [n])
  | _ => h.resolve c

/-- `open` with `O_CREAT` goes on through a symlink that it finds, dangling or not. -/
def createAt (h : Host) : Nat → List String → List Comp → Except Errno (List String × String)
  | links, cwd, c =>
      match c.getLast? with
      | some (.name n) =>
          match h.walk links cwd c.dropLast with
          | .error e => .error e
          | .ok d =>
              if h.isDir d then
                match h.node (d ++ [n]) with
                | none => .ok (d, n)
                | some node =>
                    match node.kind, links with
                    | .dir, _ => .error .isdir
                    | .file _, _ => .ok (d, n)
                    | .link _, 0 => .error .loop
                    | .link target, links + 1 =>
                        createAt h links (if target.absolute then [] else d) target.comps
              else .error .notdir
      | _ => .error .isdir

/-- `lstat`. -/
def lstat (h : Host) (c : List Comp) : Except Errno Node :=
  match h.lresolve c with
  | .error e => .error e
  | .ok p => ((h.node p).map Except.ok).getD (.error .noent)

/-- `stat` succeeds: what a path resolves to is there. -/
def pathExists (h : Host) (c : List Comp) : Bool := (h.resolve c).isOk

/-- `read_dir`. -/
def readDir (h : Host) (c : List Comp) : Except Errno (List String) :=
  match h.resolve c with
  | .error e => .error e
  | .ok p => if h.isDir p then .ok (h.children p) else .error .notdir

/-! ## §2. Changes of single nodes. -/

/-- A new node in a directory. -/
def insert (h : Host) (d : List String) (n : String) (new : Node) (hdir : h.isDir d = true)
    (hfree : h.node (d ++ [n]) = none) : Host where
  nodes := h.nodes.insert (d ++ [n]) new
  closed p m node hlookup := by
    obtain ⟨parent, hparent, hisDir⟩ := isDir_iff.mp hdir
    by_cases hkey : p ++ [m] = d ++ [n]
    · obtain ⟨rfl, -⟩ := List.append_inj' hkey rfl
      have hne : p ≠ p ++ [n] := by simp
      exact ⟨parent, (AList.lookup_insert_ne hne).trans hparent, hisDir⟩
    · rw [AList.lookup_insert_ne hkey] at hlookup
      obtain ⟨q, hq, hqdir⟩ := h.closed p m node hlookup
      have hne : p ≠ d ++ [n] := by
        intro heq
        rw [heq] at hq
        exact absurd (hfree.symm.trans hq) (by simp)
      exact ⟨q, (AList.lookup_insert_ne hne).trans hq, hqdir⟩

/-- A node is changed; a directory stays one. -/
def update (h : Host) (p : List String) (old new : Node) (hold : h.node p = some old)
    (hdir : old.isDir = true → new.isDir = true) : Host where
  nodes := h.nodes.insert p new
  closed q m node hlookup := by
    have hparent : ∃ d, h.nodes.lookup q = some d ∧ d.isDir = true := by
      by_cases hkey : q ++ [m] = p
      · exact h.closed q m old (hkey ▸ hold)
      · rw [AList.lookup_insert_ne hkey] at hlookup
        exact h.closed q m node hlookup
    obtain ⟨d, hd, hisDir⟩ := hparent
    by_cases hq : q = p
    · rw [hq, AList.lookup_insert]
      have hdold : d = old := Option.some.inj (hd.symm.trans (hq ▸ hold))
      exact ⟨new, rfl, hdir (hdold ▸ hisDir)⟩
    · exact ⟨d, (AList.lookup_insert_ne hq).trans hd, hisDir⟩

/-- A node without children is removed. -/
def erase (h : Host) (p : List String) (hleaf : ∀ n, h.node (p ++ [n]) = none) : Host where
  nodes := h.nodes.erase p
  closed q m node hlookup := by
    have hkey : q ++ [m] ≠ p := by
      intro heq
      rw [heq, AList.lookup_erase] at hlookup
      cases hlookup
    rw [AList.lookup_erase_ne hkey] at hlookup
    have hq : q ≠ p := by
      intro heq
      rw [heq] at hlookup
      exact absurd ((hleaf m).symm.trans hlookup) (by simp)
    rw [AList.lookup_erase_ne hq]
    exact h.closed q m node hlookup

/-- Everything below a directory is removed. -/
def clear (h : Host) (p : List String) : Host where
  nodes := restrict h.nodes fun k => !(p.isPrefixOf k) || k == p
  closed q m node hlookup := by
    rw [lookup_restrict] at hlookup
    split at hlookup
    next hkeep =>
      obtain ⟨d, hd, hdir⟩ := h.closed q m node hlookup
      refine ⟨d, ?_, hdir⟩
      rw [lookup_restrict, if_pos ?_]
      · exact hd
      · -- what lies below `p` has its children below `p`
        by_contra hgone
        simp only [Bool.or_eq_true, Bool.not_eq_true', beq_iff_eq, not_or, Bool.not_eq_false,
          List.isPrefixOf_iff_prefix] at hgone
        have hbelow : p <+: q ++ [m] := hgone.1.trans (List.prefix_append q [m])
        have hne : q ++ [m] ≠ p := by
          intro heq
          have hlen := hgone.1.length_le
          rw [← heq, List.length_append, List.length_singleton] at hlen
          omega
        simp [List.isPrefixOf_iff_prefix.mpr hbelow, hne] at hkeep
    next => cases hlookup

theorem not_isDir_leaf (hp : h.isDir p = false) (n : String) : h.node (p ++ [n]) = none := by
  by_contra hn
  obtain ⟨node, hn⟩ := Option.ne_none_iff_exists'.mp hn
  simp [isDir_iff.mpr (h.closed p n node hn)] at hp

theorem clear_leaf (h : Host) (p : List String) (n : String) :
    (h.clear p).node (p ++ [n]) = none := by
  show (restrict _ _).lookup _ = none
  rw [lookup_restrict, if_neg]
  simp

/-! ## §3. Calls that change the tree. -/

/-- What a call leaves: the tree, the physical path it touched, and its result. -/
structure Done where
  host : Host
  touched : Option (List String)
  result : Except Errno Unit

/-- A call that fails before it touches anything. -/
def fail (h : Host) (e : Errno) : Done := ⟨h, none, .error e⟩

/-- A new node under a free name. -/
def make (h : Host) (c : List Comp) (new : Node) : Done :=
  match h.entryOf c with
  | .error e => h.fail e
  | .ok (d, n) =>
      if hdir : h.isDir d = true then
        if hfree : h.node (d ++ [n]) = none then
          ⟨h.insert d n new hdir hfree, some (d ++ [n]), .ok ()⟩
        else h.fail .exist
      else h.fail .notdir

/-- `mkdir`. -/
def mkdir (h : Host) (c : List Comp) : Done := h.make c ⟨.dir, 0o755, 0, 0⟩

/-- Why nothing can be made at a path that ends in a slash, a dot or two dots. -/
def trailingErrno (h : Host) (c : List Comp) : Errno :=
  match h.entryOf (c.rdropWhile (· = .empty)) with
  | .error .inval => .exist
  | .error e => e
  | .ok (d, n) => if (h.node (d ++ [n])).isSome then .exist else .noent

/-- `symlink`; an empty target is refused. -/
def symlink (h : Host) (target : PathText) (c : List Comp) : Done :=
  if target = ⟨false, [.empty]⟩ then h.fail .noent
  else
    match c.getLast? with
    | some (.name _) => h.make c ⟨.link target, 0o777, 0, 0⟩
    | _ => h.fail (h.trailingErrno c)

/-- The node at a physical path is changed, if it is there. -/
def change (h : Host) (p : List String) (f : Node → Node)
    (hf : ∀ n : Node, n.isDir = true → (f n).isDir = true) : Done :=
  match hnode : h.node p with
  | none => h.fail .noent
  | some n => ⟨h.update p n (f n) hnode (hf n), some p, .ok ()⟩

/-- `chmod`, which follows symlinks. -/
def chmod (h : Host) (c : List Comp) (mode : Nat) : Done :=
  match h.resolve c with
  | .error e => h.fail e
  | .ok p => h.change p (fun n => { n with mode := mode }) fun _ hn => hn

/-- `lchown`. -/
def lchown (h : Host) (c : List Comp) (uid gid : Nat) : Done :=
  match h.lresolve c with
  | .error e => h.fail e
  | .ok p => h.change p (fun n => { n with uid := uid, gid := gid }) fun _ hn => hn

/-- `creat`: the file is created, or truncated, and the bytes are written. -/
def writeFile (h : Host) (c : List Comp) (bytes : List UInt8) : Done :=
  match h.createAt maxSymlinks [] c with
  | .error e => h.fail e
  | .ok (d, n) =>
      match hnode : h.node (d ++ [n]) with
      | some node =>
          if hdir : node.isDir = true then h.fail .isdir
          else ⟨h.update (d ++ [n]) node { node with kind := .file bytes } hnode
            (fun hn => absurd hn hdir), some (d ++ [n]), .ok ()⟩
      | none =>
          if hdir : h.isDir d = true then
            ⟨h.insert d n ⟨.file bytes, 0o644, 0, 0⟩ hdir hnode, some (d ++ [n]), .ok ()⟩
          else h.fail .notdir

/-- `unlink`. -/
def unlink (h : Host) (c : List Comp) : Done :=
  match h.entryOf c with
  | .error e => h.fail e
  | .ok (d, n) =>
      match h.node (d ++ [n]) with
      | none => h.fail .noent
      | some _ =>
          if hdir : h.isDir (d ++ [n]) = false then
            ⟨h.erase (d ++ [n]) (not_isDir_leaf hdir), some (d ++ [n]), .ok ()⟩
          else h.fail .isdir

/-- What `rmdir` says of the directory itself, past its contents: its last name must be a
directory's own, and not a dot. -/
def rmdirResult (h : Host) (c : List Comp) (p : List String) : Except Errno Unit :=
  match (c.rdropWhile (· = .empty)).getLast? with
  | some (.name _) =>
      match h.entryOf (c.rdropWhile (· = .empty)) with
      | .error e => .error e
      | .ok (d, n) => if d ++ [n] = p then .ok () else .error .notdir
  | some .up => .error .notempty
  | _ => .error .inval

/-- `remove_dir_all`: a symlink is unlinked; of a directory the contents go first, and then
the directory, if its path lets it. -/
def removeDirAll (h : Host) (c : List Comp) : Done :=
  match h.lresolve c with
  | .error e => h.fail e
  | .ok p =>
      match h.node p with
      | none => h.fail .noent
      | some node =>
          match node.kind with
          | .link _ => h.unlink c
          | .file _ => h.fail .notdir
          | .dir =>
              match h.rmdirResult c p with
              | .ok () => ⟨(h.clear p).erase p (h.clear_leaf p), some p, .ok ()⟩
              | .error e => ⟨h.clear p, some p, .error e⟩

/-! ## §4. Walks that meet no symlink. -/

/-- No symlink stands on the way to a place, nor there. -/
def Straight (h : Host) (ns : List String) : Prop := ∀ q, q <+: ns → h.NoLink q

variable {c : List Comp} {ns : List String}

theorem Straight.mono {ms : List String} (hs : h.Straight ns) (hm : ms <+: ns) :
    h.Straight ms := fun q hq => hs q (hq.trans hm)

theorem NoLink.of_isDir (hp : h.isDir p = true) : h.NoLink p := by
  intro n hn
  obtain ⟨d, hd, hdir⟩ := isDir_iff.mp hp
  obtain rfl : d = n := Option.some.inj (hd.symm.trans hn)
  have hkind : d.kind = .dir := of_decide_eq_true hdir
  simp [Node.isLink, hkind]

variable {follow : List String → List Comp → Except Errno (List String)} {tail : List Comp}
  {cwd : List String}

/-- **A walk over names that are no symlinks** goes where the names say. -/
theorem walkFrom_noLink (hup : Comp.up ∉ c)
    (hlinks : ∀ q, q <+: names c → q ≠ [] → h.NoLink (cwd ++ q))
    (hwalk : walkFrom h follow cwd (c ++ tail) = .ok p) :
    walkFrom h follow (cwd ++ names c) tail = .ok p := by
  induction c generalizing cwd with
  | nil => simpa [names] using hwalk
  | cons x c ih =>
    have hup' : Comp.up ∉ c := fun hmem => hup (List.mem_cons_of_mem _ hmem)
    cases x with
    | empty | dot => exact ih hup' hlinks hwalk
    | up => exact absurd List.mem_cons_self hup
    | name n =>
      have hnames : names (.name n :: c) = n :: names c := rfl
      have hrest : ∀ q, q <+: names c → q ≠ [] → h.NoLink ((cwd ++ [n]) ++ q) := by
        intro q hq _
        have hlink := hlinks (n :: q) (hnames ▸ List.cons_prefix_cons.mpr ⟨rfl, hq⟩) (by simp)
        rwa [← List.append_cons]
      simp only [List.cons_append, walkFrom] at hwalk
      rw [hnames, List.append_cons]
      split at hwalk
      next => cases hwalk
      next node hnode =>
        split at hwalk
        next => exact ih hup' hrest hwalk
        next bytes hkind =>
          split at hwalk
          next hend =>
            obtain ⟨rfl, rfl⟩ := List.append_eq_nil_iff.mp hend
            simpa [names, walkFrom] using hwalk
          next => cases hwalk
        next target hkind =>
          -- the name is a symlink: the first place of the walk
          have hlink := hlinks [n] (hnames ▸ by simp) (by simp) node hnode
          simp [Node.isLink, hkind] at hlink

theorem walk_eq_walkFrom (h : Host) (links : Nat) : ∃ follow, h.walk links = walkFrom h follow := by
  cases links <;> exact ⟨_, rfl⟩

variable {d : List String} {n : String}

theorem walkFrom_append_ok
    (hfollow : ∀ cwd c p, follow cwd (c ++ tail) = .ok p → ∃ q, follow cwd c = .ok q)
    (hwalk : walkFrom h follow cwd (c ++ tail) = .ok p) : ∃ q, walkFrom h follow cwd c = .ok q := by
  induction c generalizing cwd with
  | nil => exact ⟨cwd, rfl⟩
  | cons x c ih =>
    cases x with
    | empty | dot | up => exact ih hwalk
    | name =>
      simp only [List.cons_append, walkFrom] at hwalk ⊢
      split at hwalk
      next => cases hwalk
      next node hnode =>
        split at hwalk
        next hkind => exact ih hwalk
        next bytes hkind =>
          split at hwalk
          next hend =>
            obtain ⟨rfl, -⟩ := List.append_eq_nil_iff.mp hend
            exact ⟨_, if_pos rfl⟩
          next => cases hwalk
        next target hkind =>
          rw [← List.append_assoc] at hwalk
          exact hfollow _ _ _ hwalk

/-- The longer walk succeeds only where the shorter one does. -/
theorem walk_append_ok {links : Nat} (hwalk : h.walk links cwd (c ++ tail) = .ok p) :
    ∃ q, h.walk links cwd c = .ok q := by
  induction links generalizing c cwd p with
  | zero => exact walkFrom_append_ok (fun _ _ _ hloop => by cases hloop) hwalk
  | succ links ih =>
    exact walkFrom_append_ok (fun cwd c p (hp : h.walk links cwd (c ++ tail) = .ok p) => ih hp)
      hwalk

theorem resolve_straight (hup : Comp.up ∉ c) (hs : h.Straight (names c))
    (hres : h.resolve (c ++ tail) = .ok p) :
    ∃ follow, walkFrom h follow (names c) tail = .ok p := by
  obtain ⟨follow, hfollow⟩ := h.walk_eq_walkFrom maxSymlinks
  rw [resolve, hfollow] at hres
  exact ⟨follow, walkFrom_noLink hup (fun q hq _ => hs q hq) hres⟩

theorem resolve_eq_names (hup : Comp.up ∉ c) (hs : h.Straight (names c))
    (hres : h.resolve c = .ok p) : p = names c := by
  rw [← List.append_nil c] at hres
  obtain ⟨follow, hwalk⟩ := resolve_straight hup hs hres
  exact (Except.ok.inj hwalk).symm

variable {x : Comp}

theorem getLast?_split (hlast : c.getLast? = some x) : c = c.dropLast ++ [x] :=
  (List.dropLast_append_getLast? x hlast).symm

/-- Only a path that ends in a name has an entry, in the directory it leads through. -/
theorem entryOf_eq_ok : h.entryOf c = .ok (d, n) ↔
      c.getLast? = some (.name n) ∧ h.resolve c.dropLast = .ok d ∧ h.isDir d = true := by
  unfold entryOf
  grind

/-- The directory of a path without symlinks, and its last name. -/
theorem entryOf_straight (hup : Comp.up ∉ c.dropLast) (hs : h.Straight (names c.dropLast))
    (hentry : h.entryOf c = .ok (d, n)) :
    c = c.dropLast ++ [.name n] ∧ d = names c.dropLast ∧ h.isDir d = true := by
  obtain ⟨hlast, hres, hdir⟩ := entryOf_eq_ok.mp hentry
  exact ⟨getLast?_split hlast, resolve_eq_names hup hs hres, hdir⟩

theorem entryOf_eq_names (hup : Comp.up ∉ c.dropLast) (hs : h.Straight (names c.dropLast))
    (hentry : h.entryOf c = .ok (d, n)) : d ++ [n] = names c := by
  obtain ⟨hc, hd, -⟩ := entryOf_straight hup hs hentry
  have hn : names [Comp.name n] = [n] := rfl
  rw [hd, hc, names_append, hn, ← hc]

/-- What is found below a directory is found through the directory. -/
theorem lresolve_append_ok (hres : h.lresolve (c ++ [x]) = .ok p) : ∃ q, h.resolve c = .ok q := by
  unfold lresolve at hres
  split at hres
  next n hlast =>
    split at hres
    next => cases hres
    next d m hentry =>
      obtain ⟨-, hq, -⟩ := entryOf_eq_ok.mp hentry
      rw [List.dropLast_concat] at hq
      exact ⟨d, hq⟩
  next => exact walk_append_ok hres

variable {q : List String}

theorem isDir_above (hpq : p <+: q) (hq : h.isDir q = true) : h.isDir p = true := by
  induction q using List.reverseRecOn with
  | nil => rwa [List.prefix_nil.mp hpq]
  | append_singleton q n ih =>
    rcases List.prefix_concat_iff.mp hpq with rfl | hshort
    · exact hq
    · obtain ⟨node, hnode, -⟩ := isDir_iff.mp hq
      exact ih hshort (isDir_iff.mpr (h.closed q n node hnode))

theorem Straight.of_isDir (hp : h.isDir p = true) :
    h.Straight p := fun _ hq => NoLink.of_isDir (isDir_above hq hp)

/-- The path of a directory resolves to it. -/
theorem resolve_ofNames (hp : h.isDir p = true) : h.resolve (ofNames p) = .ok p := by
  obtain ⟨follow, hfollow⟩ := h.walk_eq_walkFrom maxSymlinks
  have hwalk : ∀ cwd ns, h.isDir (cwd ++ ns) = true →
      walkFrom h follow cwd (ofNames ns) = .ok (cwd ++ ns) := by
    intro cwd ns
    induction ns generalizing cwd with
    | nil => intro _; simp [ofNames, walkFrom]
    | cons n ns ih =>
      intro hdir
      rw [List.append_cons] at hdir ⊢
      have hnext := isDir_above (List.prefix_append (cwd ++ [n]) ns) hdir
      obtain ⟨d, hd, hisDir⟩ := isDir_iff.mp hnext
      have hkind : d.kind = .dir := of_decide_eq_true hisDir
      show walkFrom h follow cwd (.name n :: ofNames ns) = _
      simp only [walkFrom, hd, hkind]
      exact ih _ hdir
  rw [resolve, hfollow]
  exact hwalk [] p hp

theorem lresolve_of_entryOf (hentry : h.entryOf c = .ok (d, n)) :
    h.lresolve c = .ok (d ++ [n]) := by
  simp [lresolve, (entryOf_eq_ok.mp hentry).1, hentry]

/-- **A path whose followed part meets no symlink** leads to its endpoint. -/
theorem lresolve_straight (hup : Comp.up ∉ c.dropLast) (hs : h.Straight (names (followed c)))
    (hres : h.lresolve c = .ok p) : p = endpoint c := by
  unfold lresolve at hres
  unfold followed at hs
  unfold endpoint
  split at hres
  next n hlast =>
    simp only [hlast] at hs ⊢
    split at hres
    next => cases hres
    next d m hentry =>
      injection hres with hres
      rw [← hres, entryOf_eq_names hup hs hentry]
  next hlast =>
    have hs' : h.Straight (names c) := by
      split at hs
      next n hn => exact absurd hn (hlast n)
      next => exact hs
    split
    next hend =>
      -- two dots at the end: the walk steps back once
      have hc := getLast?_split hend
      have hnames : names c = names c.dropLast := by
        rw [hc, names_append, ← hc]
        exact List.append_nil _
      rw [hc] at hres
      obtain ⟨follow, hwalk⟩ := resolve_straight hup (hnames ▸ hs') hres
      rw [hnames]
      exact (Except.ok.inj hwalk).symm
    next hend =>
      refine resolve_eq_names ?_ hs' hres
      intro hmem
      cases hl : c.getLast? with
      | none => simp [List.getLast?_eq_none_iff.mp hl] at hmem
      | some =>
        rw [getLast?_split hl, List.mem_append] at hmem
        rcases hmem with hmem | hmem
        · exact hup hmem
        · exact hend (hl.trans (congrArg some (List.mem_singleton.mp hmem).symm))

/-- `lstat` of a path with an entry looks at the entry. -/
theorem lstat_of_entryOf (hentry : h.entryOf c = .ok (d, n)) :
    h.lstat c = ((h.node (d ++ [n])).map Except.ok).getD (.error .noent) := by
  rw [lstat, lresolve_of_entryOf hentry]

/-! ## §5. What a call leaves as it was. -/

/-- A call changes at most what lies at and below `p`, and a symlink appears at `p` only. -/
structure Effect (p : List String) (h : Host) (d : Done) : Prop where
  touched : ∀ q, d.touched = some q → q = p
  frame : ∀ q, ¬ p <+: q → d.host.node q = h.node q
  noLink : ∀ q, q ≠ p → h.NoLink q → d.host.NoLink q

/-- A call that makes no symlink at all. -/
structure LinkFree (p : List String) (h : Host) (d : Done) : Prop extends Effect p h d where
  noLinkAt : h.NoLink p → d.host.NoLink p

theorem fail_linkFree (p : List String) (h : Host) (e : Errno) : LinkFree p h (h.fail e) where
  touched _ hq := by cases hq
  frame _ _ := rfl
  noLink _ _ hq := hq
  noLinkAt hp := hp

variable {target : PathText} {bytes : List UInt8}

section
variable {h' : Host} {r : Except Errno Unit} {new n : Node}

/-- A new node at `p`. -/
theorem effect_of_set (hset : h'.nodes = h.nodes.insert p new) : Effect p h ⟨h', some p, r⟩ where
  touched _ hq := (Option.some.inj hq).symm
  frame q hq := by
    have hne : q ≠ p := fun heq => hq (heq ▸ List.prefix_rfl)
    show h'.nodes.lookup q = _
    rw [hset, AList.lookup_insert_ne hne]
    rfl
  noLink q hne hq n hn := by
    have hn' : h'.nodes.lookup q = some n := hn
    rw [hset, AList.lookup_insert_ne hne] at hn'
    exact hq n hn'

theorem linkFree_of_set (hset : h'.nodes = h.nodes.insert p new)
    (hnew : h.NoLink p → new.isLink = false) : LinkFree p h ⟨h', some p, r⟩ where
  toEffect := effect_of_set hset
  noLinkAt hp n hn := by
    have hn' : h'.nodes.lookup p = some n := hn
    rw [hset, AList.lookup_insert] at hn'
    exact Option.some.inj hn' ▸ hnew hp

/-- A removal of nodes at and below `p`. -/
theorem linkFree_of_remove (hsub : ∀ q n, h'.node q = some n → h.node q = some n)
    (hframe : ∀ q, ¬ p <+: q → h'.node q = h.node q) : LinkFree p h ⟨h', some p, r⟩ where
  touched _ hq := (Option.some.inj hq).symm
  frame := hframe
  noLink q _ hq n hn := hq n (hsub q n hn)
  noLinkAt hp n hn := hp n (hsub p n hn)

/-- A call that makes a node fails, or the node is there under a free name. -/
theorem make_cases (h : Host) (c : List Comp) (new : Node) : (∃ e, h.make c new = h.fail e) ∨
      ∃ d n hdir hfree, h.entryOf c = .ok (d, n) ∧
        h.make c new = ⟨h.insert d n new hdir hfree, some (d ++ [n]), .ok ()⟩ := by
  unfold make
  split
  next e _ => exact .inl ⟨e, rfl⟩
  next d n hentry =>
    split
    next hdir =>
      split
      next hfree => exact .inr ⟨d, n, hdir, hfree, hentry, rfl⟩
      next => exact .inl ⟨_, rfl⟩
    next => exact .inl ⟨_, rfl⟩

section
variable (hp : ∀ d n, h.entryOf c = .ok (d, n) → d ++ [n] = p)
include hp

theorem make_effect : Effect p h (h.make c new) := by
  rcases make_cases h c new with ⟨e, he⟩ | ⟨d, n, hdir, hfree, hentry, he⟩ <;> rw [he]
  · exact (fail_linkFree p h e).toEffect
  · obtain rfl := hp d n hentry
    exact effect_of_set rfl

theorem mkdir_linkFree : LinkFree p h (h.mkdir c) := by
  unfold mkdir
  rcases make_cases h c ⟨.dir, 0o755, 0, 0⟩ with ⟨e, he⟩ | ⟨d, n, hdir, hfree, hentry, he⟩ <;>
    rw [he]
  · exact fail_linkFree p h e
  · obtain rfl := hp d n hentry
    exact linkFree_of_set rfl fun _ => rfl

/-- A directory that was made stands where nothing stood. -/
theorem mkdir_free (hok : (h.mkdir c).result = .ok ()) : h.NoLink p := by
  unfold mkdir at hok
  rcases make_cases h c ⟨.dir, 0o755, 0, 0⟩ with ⟨e, he⟩ | ⟨d, n, hdir, hfree, hentry, -⟩
  · rw [he] at hok
    cases hok
  · obtain rfl := hp d n hentry
    intro node hnode
    simp [hfree] at hnode

theorem symlink_effect : Effect p h (h.symlink target c) := by
  unfold symlink
  split
  next => exact (fail_linkFree p h _).toEffect
  next =>
    split
    next => exact make_effect hp
    next => exact (fail_linkFree p h _).toEffect

end

/-- Nothing is linked at a path that ends in a slash, a dot or two dots. -/
theorem symlink_trailing (hlast : ∀ n, c.getLast? ≠ some (.name n)) :
    (h.symlink target c).result ≠ .ok () := by
  unfold symlink
  split
  · nofun
  · split
    next n hn => exact absurd hn (hlast n)
    next => nofun

/-- Making a directory that is there fails, and not for want of its parent. -/
theorem mkdir_existing (hne : ns ≠ []) (hdir : h.isDir ns = true) :
    h.mkdir (ofNames ns) = h.fail .exist := by
  obtain ⟨d, n, rfl⟩ : ∃ d n, ns = d ++ [n] :=
    ⟨_, _, (List.dropLast_append_getLast hne).symm⟩
  have hparent := isDir_above (List.prefix_append d [n]) hdir
  have hpath : ofNames (d ++ [n]) = ofNames d ++ [.name n] := by simp [ofNames]
  have hentry : h.entryOf (ofNames (d ++ [n])) = .ok (d, n) := by
    rw [entryOf_eq_ok, hpath, List.getLast?_concat, List.dropLast_concat]
    exact ⟨rfl, resolve_ofNames hparent, hparent⟩
  obtain ⟨node, hnode, -⟩ := isDir_iff.mp hdir
  have htaken : ¬ h.node (d ++ [n]) = none := by simp [hnode]
  simp only [mkdir, make, hentry, hparent, dif_pos, dif_neg htaken]

theorem change_linkFree {f : Node → Node} {hf : ∀ n : Node, n.isDir = true → (f n).isDir = true}
    (hkind : ∀ n, (f n).kind = n.kind) : LinkFree p h (h.change p f hf) := by
  unfold change
  split
  next => exact fail_linkFree p h _
  next n hnode =>
    refine linkFree_of_set rfl fun hp => ?_
    have hn := hp n hnode
    rwa [Node.isLink, hkind]

theorem chmod_linkFree {mode : Nat} (hp : ∀ q, h.resolve c = .ok q → q = p) :
    LinkFree p h (h.chmod c mode) := by
  unfold chmod
  split
  next e he => exact fail_linkFree p h e
  next q hq =>
    obtain rfl := hp q hq
    exact change_linkFree fun _ => rfl

theorem lchown_linkFree {uid gid : Nat} (hp : ∀ q, h.lresolve c = .ok q → q = p) :
    LinkFree p h (h.lchown c uid gid) := by
  unfold lchown
  split
  next e he => exact fail_linkFree p h e
  next q hq =>
    obtain rfl := hp q hq
    exact change_linkFree fun _ => rfl

theorem node_erase_some {hleaf : ∀ n, h.node (p ++ [n]) = none}
    (hn : (h.erase p hleaf).node q = some n) : q ≠ p ∧ h.node q = some n :=
  lookup_of_erase hn

theorem node_erase_frame {hleaf : ∀ n, h.node (p ++ [n]) = none} (hq : ¬ p <+: q) :
    (h.erase p hleaf).node q = h.node q := by
  have hne : q ≠ p := fun heq => hq (heq ▸ List.prefix_rfl)
  exact AList.lookup_erase_ne hne

theorem node_clear (h : Host) (p q : List String) :
    (h.clear p).node q = if p <+: q ∧ q ≠ p then none else h.node q := by
  show (restrict _ _).lookup q = _
  rw [lookup_restrict]
  by_cases hq : q = p
  · simp [hq, node]
  · cases hpre : p.isPrefixOf q <;> simp [← List.isPrefixOf_iff_prefix, hpre, hq, node]

theorem node_clear_some (hn : (h.clear p).node q = some n) : h.node q = some n := by
  rw [node_clear] at hn
  split at hn
  next => cases hn
  next => exact hn

theorem node_clear_frame (hq : ¬ p <+: q) : (h.clear p).node q = h.node q := by
  rw [node_clear, if_neg fun hboth => hq hboth.1]

theorem unlink_linkFree (hp : ∀ d n, h.entryOf c = .ok (d, n) → d ++ [n] = p) :
    LinkFree p h (h.unlink c) := by
  unfold unlink
  split
  next e he => exact fail_linkFree p h e
  next d n hentry =>
    obtain rfl := hp d n hentry
    split
    next => exact fail_linkFree _ h _
    next node hnode =>
      split
      next hdir =>
        exact linkFree_of_remove (fun q n hn => (node_erase_some hn).2) fun q hq =>
          node_erase_frame hq
      next => exact fail_linkFree _ h _

/-- What was unlinked is gone. -/
theorem unlink_gone {n : String} (hentry : h.entryOf c = .ok (d, n))
    (hdir : h.isDir (d ++ [n]) = false) : (h.unlink c).host.node (d ++ [n]) = none := by
  cases hnode : h.node (d ++ [n]) with
  | none => simp [unlink, hentry, hnode, fail]
  | some =>
    simp only [unlink, hentry, hnode, hdir, dif_pos]
    exact AList.lookup_erase _ _

theorem removeDirAll_linkFree (hp : ∀ q, h.lresolve c = .ok q → q = p) :
    LinkFree p h (h.removeDirAll c) := by
  unfold removeDirAll
  split
  next e he => exact fail_linkFree p h e
  next q hq =>
    obtain rfl := hp q hq
    split
    next => exact fail_linkFree _ h _
    next node hnode =>
      split
      next => exact unlink_linkFree fun d n hentry => hp _ (lresolve_of_entryOf hentry)
      next => exact fail_linkFree _ h _
      next =>
        split
        next =>
          refine linkFree_of_remove (fun r n hn => node_clear_some (node_erase_some hn).2) ?_
          intro r hr
          rw [node_erase_frame hr, node_clear_frame hr]
        next => exact linkFree_of_remove (fun r n hn => node_clear_some hn) fun r hr =>
          node_clear_frame hr

/-- Without a symlink at the end, `open` creates or truncates at the path's own place. -/
theorem createAt_entryOf {n : String}
    (hleaf : ∀ d n, h.entryOf c = .ok (d, n) → h.NoLink (d ++ [n]))
    (hcreate : h.createAt maxSymlinks [] c = .ok (d, n)) : h.entryOf c = .ok (d, n) := by
  unfold createAt at hcreate
  split at hcreate
  next m hlast =>
    split at hcreate
    next => cases hcreate
    next d' hwalk =>
      split at hcreate
      next hdir =>
        have hentry : h.entryOf c = .ok (d', m) := entryOf_eq_ok.mpr ⟨hlast, hwalk, hdir⟩
        have hnolink := hleaf d' m hentry
        split at hcreate
        next => exact hentry.trans hcreate
        next node hnode =>
          have hnode' := hnolink node hnode
          split at hcreate
          next => cases hcreate
          next => exact hentry.trans hcreate
          next => cases hcreate
          next target k hkind hk => simp [Node.isLink, hkind] at hnode'
      next => cases hcreate
  next => cases hcreate

theorem writeFile_ok_entryOf (hleaf : ∀ d n, h.entryOf c = .ok (d, n) → h.NoLink (d ++ [n]))
    (hok : (h.writeFile c bytes).result = .ok ()) : ∃ d n, h.entryOf c = .ok (d, n) := by
  unfold writeFile at hok
  split at hok
  next => cases hok
  next d n hcreate => exact ⟨d, n, createAt_entryOf hleaf hcreate⟩

theorem writeFile_linkFree (hp : ∀ d n, h.entryOf c = .ok (d, n) → d ++ [n] = p)
    (hleaf : ∀ d n, h.entryOf c = .ok (d, n) → h.NoLink (d ++ [n])) :
    LinkFree p h (h.writeFile c bytes) := by
  unfold writeFile
  split
  next e he => exact fail_linkFree p h e
  next d n hcreate =>
    obtain rfl := hp d n (createAt_entryOf hleaf hcreate)
    split
    next node hnode =>
      split
      next => exact fail_linkFree _ h _
      next => exact linkFree_of_set rfl fun _ => rfl
    next hnode =>
      split
      next => exact linkFree_of_set rfl fun _ => rfl
      next => exact fail_linkFree _ h _

end

end Host

end Denia.Lib
