/-
  Denia.Syscall.Chown — the OWNERSHIP SHIFT of an unpacked rootfs into the range of the user
  namespace (`recursive_lchown_shifted`, `src/syscall/chown.rs`).

  The entries of a tree name INODES and the owners are kept by inode, so one inode may stand
  under several names and is then shifted once per name.  The shift leaves what it has shifted
  alone (`shiftOwner_idem`), hence the walk amounts to one shift of every inode it names.

  Main results: `lchown_shiftOn`, a walk that succeeds; `recursiveLchownShifted_exact`, who
  owns what afterwards.
-/
import Denia.Lib.Hoare
import Mathlib.Algebra.Ring.Nat

namespace Denia.Syscall

open Lib

/-! ## §1. The tree and the walk. -/

/-- uid and gid. -/
structure Owner where
  uid : Nat
  gid : Nat

/-- What a path names.  The walk reads the metadata of a symlink, never its target. -/
inductive FileTree where
  | file (ino : Nat)
  | symlink (ino : Nat) (target : String)
  | dir (ino : Nat) (entries : List (String × FileTree))

/-- The owners by inode. -/
abbrev Owners := Nat → Owner

/-- The system calls of the walk; `nextEntry i` is the `i`-th turn of the directory's iterator. -/
inductive Call where
  | symlinkMetadata
  | readDir
  | nextEntry (i : Nat)
  | chown

/-- How the system answers: an error for a call on a path, or `none`. -/
abbrev System := Call → List String → Owners → Option String

/-- A call that may fail. -/
def System.call (sys : System) (c : Call) (path : List String) (owners : Owners) :
    Except String Unit :=
  (sys c path owners).elim (.ok ()) .error

/-- `u32::MAX`. -/
def u32Max : Nat := 2 ^ 32 - 1

/-- `saturating_add`. -/
def saturatingAdd (a b : Nat) : Nat := min (a + b) u32Max

/-- `shift_id`. -/
def shiftId (id base size : Nat) : Nat :=
  if id ≥ base ∧ id < saturatingAdd base size then id
  else if id < size then saturatingAdd base id
  else base

/-- `chown(2)`: the id `-1` leaves the owner's own. -/
def Owner.chown (o : Owner) (uid gid : Nat) : Owner :=
  ⟨if uid = u32Max then o.uid else uid, if gid = u32Max then o.gid else gid⟩

/-- One `lchown`. -/
def chownEntry (sys : System) (path : List String) (ino uid gid : Nat) (owners : Owners) :
    Except String Owners := do
  sys.call .chown path owners
  return fun i => if i = ino then (owners i).chown uid gid else owners i

mutual

/-- `recursive_lchown_shifted`: the ids are read before the walk goes below. -/
def recursiveLchownShifted (sys : System) (base size : Nat) (path : List String) :
    FileTree → Owners → Except String Owners
  | .file ino, owners | .symlink ino _, owners => do
    sys.call .symlinkMetadata path owners
    chownEntry sys path ino (shiftId (owners ino).uid base size)
      (shiftId (owners ino).gid base size) owners
  | .dir ino entries, owners => do
    sys.call .symlinkMetadata path owners
    sys.call .readDir path owners
    let below ← lchownEntries sys base size path 0 entries owners
    chownEntry sys path ino (shiftId (owners ino).uid base size)
      (shiftId (owners ino).gid base size) below

/-- The loop over a directory's entries. -/
def lchownEntries (sys : System) (base size : Nat) (path : List String) (i : Nat) :
    List (String × FileTree) → Owners → Except String Owners
  | [], owners => do
    sys.call (.nextEntry i) path owners
    return owners
  | (name, tree) :: rest, owners => do
    sys.call (.nextEntry i) path owners
    let owners ← recursiveLchownShifted sys base size (path ++ [name]) tree owners
    lchownEntries sys base size path (i + 1) rest owners

end

mutual

/-- The inodes below a path, no symlink followed. -/
def FileTree.inodes : FileTree → List Nat
  | .file ino | .symlink ino _ => [ino]
  | .dir ino entries => entryInodes entries ++ [ino]

/-- Those of the entries. -/
def entryInodes : List (String × FileTree) → List Nat
  | [] => []
  | (_, tree) :: rest => tree.inodes ++ entryInodes rest

end

/-! ## §2. One shift for every inode named. -/

variable {sys : System} {base size : Nat} {owners owners' : Owners}

/-- What one visit makes of an owner. -/
def shiftOwner (base size : Nat) (o : Owner) : Owner :=
  o.chown (shiftId o.uid base size) (shiftId o.gid base size)

theorem Owner.chown_twice (o : Owner) (uid gid : Nat) :
    (o.chown uid gid).chown uid gid = o.chown uid gid := by
  unfold Owner.chown
  split <;> split <;> rfl

/-- **A second visit changes nothing.** -/
theorem shiftOwner_idem (hfit : base + size ≤ 2 ^ 32) (o : Owner) :
    shiftOwner base size (shiftOwner base size o) = shiftOwner base size o := by
  simp only [shiftOwner, Owner.chown, shiftId, saturatingAdd, u32Max, Owner.mk.injEq]
  constructor <;> grind

/-- Every inode of a list shifted once. -/
def shiftOn (base size : Nat) (inodes : List Nat) (owners : Owners) : Owners :=
  fun i => if i ∈ inodes then shiftOwner base size (owners i) else owners i

theorem shiftOn_append (hfit : base + size ≤ 2 ^ 32) (xs ys : List Nat) (owners : Owners) :
    shiftOn base size ys (shiftOn base size xs owners) = shiftOn base size (xs ++ ys) owners := by
  funext i
  by_cases hx : i ∈ xs <;> by_cases hy : i ∈ ys <;> simp [shiftOn, hx, hy, shiftOwner_idem hfit]

/-- The entry's own shift goes by the ids read before its directory was walked. -/
theorem chownEntry_shiftOn {path : List String} {ino : Nat} (below : List Nat)
    (h : chownEntry sys path ino (shiftId (owners ino).uid base size)
      (shiftId (owners ino).gid base size) (shiftOn base size below owners) = .ok owners') :
    owners' = shiftOn base size (below ++ [ino]) owners := by
  obtain ⟨_, -, h⟩ := bind_eq_ok.mp h
  cases h
  funext i
  by_cases hi : i = ino
  · subst hi
    by_cases hb : i ∈ below <;> simp [shiftOn, hb, shiftOwner, Owner.chown_twice]
  · simp [shiftOn, hi]

mutual

/-- **A walk that succeeds has shifted every inode it names, once.** -/
theorem lchown_shiftOn (hfit : base + size ≤ 2 ^ 32) :
    ∀ (tree : FileTree) {path : List String} {owners owners' : Owners},
      recursiveLchownShifted sys base size path tree owners = .ok owners' →
      owners' = shiftOn base size tree.inodes owners
  | .file _, _, _, _, h | .symlink _ _, _, _, _, h => by
    obtain ⟨_, -, h⟩ := bind_eq_ok.mp h
    exact chownEntry_shiftOn [] h
  | .dir _ entries, _, _, _, h => by
    obtain ⟨_, -, h⟩ := bind_eq_ok.mp h
    obtain ⟨_, -, h⟩ := bind_eq_ok.mp h
    obtain ⟨_, hbelow, h⟩ := bind_eq_ok.mp h
    rw [entries_shiftOn hfit entries hbelow] at h
    exact chownEntry_shiftOn _ h

theorem entries_shiftOn (hfit : base + size ≤ 2 ^ 32) :
    ∀ (entries : List (String × FileTree)) {path : List String} {i : Nat}
      {owners owners' : Owners}, lchownEntries sys base size path i entries owners = .ok owners' →
      owners' = shiftOn base size (entryInodes entries) owners
  | [], _, _, _, _, h => by
    obtain ⟨_, -, h⟩ := bind_eq_ok.mp h
    cases h
    rfl
  | (_, tree) :: rest, _, _, _, _, h => by
    obtain ⟨_, -, h⟩ := bind_eq_ok.mp h
    obtain ⟨_, hfirst, h⟩ := bind_eq_ok.mp h
    rw [entries_shiftOn hfit rest h, lchown_shiftOn hfit tree hfirst, shiftOn_append hfit]
    rfl

end

/-! ## §3. Who owns what. -/

/-- An id below `size` moves by `base`; one that already lies in the range stays.  The id
`-1` cannot be given to an inode, and nothing is said of an id that would move there. -/
def Shifted (base size old new : Nat) : Prop :=
  old < size →
    (base ≤ old ∧ old < base + size → new = old) ∧
      (¬(base ≤ old ∧ old < base + size) → base + old ≠ u32Max → new = base + old)

theorem shiftOwner_shifted (hfit : base + size ≤ 2 ^ 32) (o : Owner) :
    Shifted base size o.uid (shiftOwner base size o).uid ∧
      Shifted base size o.gid (shiftOwner base size o).gid := by
  simp only [Shifted, shiftOwner, Owner.chown, shiftId, saturatingAdd, u32Max]
  constructor <;> grind

/-- **The shift of a tree is exact.**  Every inode below the path is shifted once, whatever its
names; no other inode changes its owner. -/
theorem recursiveLchownShifted_exact (hfit : base + size ≤ 2 ^ 32) (path : List String)
    (tree : FileTree) (h : recursiveLchownShifted sys base size path tree owners = .ok owners') :
    (∀ ino ∈ tree.inodes, Shifted base size (owners ino).uid (owners' ino).uid ∧
        Shifted base size (owners ino).gid (owners' ino).gid) ∧
      ∀ ino ∉ tree.inodes, owners' ino = owners ino := by
  rw [lchown_shiftOn hfit tree h]
  constructor
  · intro ino hino
    simpa [shiftOn, hino] using shiftOwner_shifted hfit (owners ino)
  · intro ino hino
    simp [shiftOn, hino]

/-- Two names of one inode, and a symlink that leaves the tree. -/
def linkedTree : FileTree :=
  .dir 1 [("a", .file 2), ("b", .file 2), ("etc", .symlink 3 "/etc")]

theorem recursiveLchownShifted_linked :
    ∃ owners', recursiveLchownShifted (fun _ _ _ => none) 100000 65536 [] linkedTree
        (fun _ => ⟨101, 0⟩) = .ok owners' ∧
      ((owners' 2).uid = 100101 ∧ (owners' 2).gid = 100000) ∧ owners' 4 = ⟨101, 0⟩ := by
  obtain ⟨owners', h⟩ : ∃ owners', recursiveLchownShifted (fun _ _ _ => none) 100000 65536 []
      linkedTree (fun _ => ⟨101, 0⟩) = .ok owners' := ⟨_, rfl⟩
  have hexact := recursiveLchownShifted_exact (by decide) [] linkedTree h
  obtain ⟨huid, hgid⟩ := hexact.1 2 (by decide)
  refine ⟨owners', h, ⟨?_, ?_⟩, hexact.2 4 (by decide)⟩
  · exact (huid (by decide)).2 (by decide) (by decide)
  · exact (hgid (by decide)).2 (by decide) (by decide)

/-- **An image id inside the range stays where it is**: with the range at 1000, uid 1000 of the
image is not moved to 2000. -/
theorem image_id_in_range_stays :
    ∃ owners', recursiveLchownShifted (fun _ _ _ => none) 1000 65536 [] (.file 0)
        (fun _ => ⟨1000, 0⟩) = .ok owners' ∧ (owners' 0).uid ≠ 1000 + 1000 := by
  refine ⟨_, rfl, ?_⟩
  decide

end Denia.Syscall
