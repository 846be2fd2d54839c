/-
  Denia.Lib.Fs — files by name, one INODE behind each name.

  A descriptor is an inode: it goes on naming the same bytes when the name it was
  opened by is renamed, unlinked or created again.  What a name shows is therefore
  not changed by an operation on ANOTHER name, but it is changed by a write through a
  descriptor that was opened by another name.

  No inode has two names (there is no `link` here), and that is a field of the type;
  `read_write_of_ne` and its companions are the frame rules that follow from it.
-/
import Mathlib.Data.List.AList
import Mathlib.Logic.Function.Basic

namespace Denia.Lib

variable {ν β : Type*} [DecidableEq ν]

/-- The files: what each name links to, and what is in each inode. -/
structure Fs (ν β : Type*) [DecidableEq ν] where
  links : AList fun _ : ν => Nat
  contents : Nat → List β
  mtime : Nat → Int
  next : Nat
  links_inj : ∀ p q i, links.lookup p = some i → links.lookup q = some i → p = q
  links_lt : ∀ p i, links.lookup p = some i → i < next

namespace Fs

/-! ## §1. Calls. -/

/-- No file. -/
def empty : Fs ν β where
  links := ∅
  contents _ := []
  mtime _ := 0
  next := 0
  links_inj p q i h := by
    rw [AList.lookup_empty] at h
    cases h
  links_lt p i h := by
    rw [AList.lookup_empty] at h
    cases h

/-- The bytes a name shows. -/
def read (fs : Fs ν β) (p : ν) : Option (List β) := (fs.links.lookup p).map fs.contents

/-- The bytes of an inode are replaced, now. -/
def write (fs : Fs ν β) (now : Int) (i : Nat) (bytes : List β) : Fs ν β :=
  { fs with
    contents := Function.update fs.contents i bytes
    mtime := Function.update fs.mtime i now }

/-- A new, empty inode under a name. -/
def link (fs : Fs ν β) (now : Int) (p : ν) : Fs ν β where
  links := fs.links.insert p fs.next
  contents := Function.update fs.contents fs.next []
  mtime := Function.update fs.mtime fs.next now
  next := fs.next + 1
  links_inj a b i ha hb := by
    by_cases hap : a = p
    · by_cases hbp : b = p
      · rw [hap, hbp]
      · rw [hap, AList.lookup_insert] at ha
        rw [AList.lookup_insert_ne hbp, ← Option.some.inj ha] at hb
        exact absurd (fs.links_lt b _ hb) (Nat.lt_irrefl _)
    · rw [AList.lookup_insert_ne hap] at ha
      by_cases hbp : b = p
      · rw [hbp, AList.lookup_insert] at hb
        rw [← Option.some.inj hb] at ha
        exact absurd (fs.links_lt a _ ha) (Nat.lt_irrefl _)
      · rw [AList.lookup_insert_ne hbp] at hb
        exact fs.links_inj a b i ha hb
  links_lt a i ha := by
    by_cases hap : a = p
    · rw [hap, AList.lookup_insert] at ha
      rw [← Option.some.inj ha]
      exact Nat.lt_succ_self _
    · rw [AList.lookup_insert_ne hap] at ha
      exact Nat.lt_succ_of_lt (fs.links_lt a i ha)

/-- `open` with `O_CREAT`: the inode of the name, a new one if there is none. -/
def openCreate (fs : Fs ν β) (now : Int) (p : ν) : Fs ν β × Nat :=
  match fs.links.lookup p with
  | some i => (fs, i)
  | none => (fs.link now p, fs.next)

/-- `open` with `O_CREAT | O_TRUNC`. -/
def create (fs : Fs ν β) (now : Int) (p : ν) : Fs ν β × Nat :=
  match fs.links.lookup p with
  | some i => (fs.write now i [], i)
  | none => (fs.link now p, fs.next)

/-- `unlink`; nothing happens when there is no such name. -/
def unlink (fs : Fs ν β) (p : ν) : Fs ν β :=
  { fs with
    links := fs.links.erase p
    links_inj := by
      intro a b i ha hb
      by_cases hap : a = p
      · rw [hap, AList.lookup_erase] at ha
        cases ha
      by_cases hbp : b = p
      · rw [hbp, AList.lookup_erase] at hb
        cases hb
      rw [AList.lookup_erase_ne hap] at ha
      rw [AList.lookup_erase_ne hbp] at hb
      exact fs.links_inj a b i ha hb
    links_lt := by
      intro a i ha
      by_cases hap : a = p
      · rw [hap, AList.lookup_erase] at ha
        cases ha
      rw [AList.lookup_erase_ne hap] at ha
      exact fs.links_lt a i ha }

/-- The inode of `p` under the name `q`, which loses the one it had. -/
def relink (fs : Fs ν β) (p q : ν) (i : Nat) (h : fs.links.lookup p = some i) : Fs ν β :=
  { fs with
    links := (fs.links.erase p).insert q i
    links_inj := by
      -- the names other than `q` are names of `fs` other than `p`
      have hold : ∀ a j, a ≠ q → ((fs.links.erase p).insert q i).lookup a = some j →
          fs.links.lookup a = some j ∧ a ≠ p := by
        intro a j haq ha
        rw [AList.lookup_insert_ne haq] at ha
        by_cases hap : a = p
        · rw [hap, AList.lookup_erase] at ha
          cases ha
        · rw [AList.lookup_erase_ne hap] at ha
          exact ⟨ha, hap⟩
      intro a b j ha hb
      by_cases haq : a = q
      · by_cases hbq : b = q
        · rw [haq, hbq]
        · obtain ⟨hb, hbp⟩ := hold b j hbq hb
          rw [haq, AList.lookup_insert] at ha
          rw [← Option.some.inj ha] at hb
          exact absurd (fs.links_inj b p i hb h) hbp
      · obtain ⟨ha, hap⟩ := hold a j haq ha
        by_cases hbq : b = q
        · rw [hbq, AList.lookup_insert] at hb
          rw [← Option.some.inj hb] at ha
          exact absurd (fs.links_inj a p i ha h) hap
        · exact fs.links_inj a b j ha (hold b j hbq hb).1
    links_lt := by
      intro a j ha
      by_cases haq : a = q
      · rw [haq, AList.lookup_insert] at ha
        rw [← Option.some.inj ha]
        exact fs.links_lt p i h
      · rw [AList.lookup_insert_ne haq] at ha
        by_cases hap : a = p
        · rw [hap, AList.lookup_erase] at ha
          cases ha
        · rw [AList.lookup_erase_ne hap] at ha
          exact fs.links_lt a j ha }

/-- `rename`; `none` when there is no such name. -/
def rename (fs : Fs ν β) (p q : ν) : Option (Fs ν β) :=
  match h : fs.links.lookup p with
  | none => none
  | some i => some (fs.relink p q i h)

/-- `write` at an offset; a gap before it reads as zeros. -/
def overwrite [Inhabited β] (bytes : List β) (offset : Nat) (chunk : List β) : List β :=
  (bytes ++ List.replicate (offset - bytes.length) default).take offset ++ chunk ++
    bytes.drop (offset + chunk.length)

/-- One `read` at an offset: at least one byte, at most `most`, and none at the end. -/
def readAt (fs : Fs ν β) (i offset most : Nat) : List β :=
  ((fs.contents i).drop offset).take (max 1 most)

/-! ## §2. What the names show afterwards. -/

variable {fs fs' : Fs ν β} {now : Int} {p q : ν} {i : Nat} {bytes : List β}

theorem read_of_link (h : fs.links.lookup p = some i) : fs.read p = some (fs.contents i) := by
  rw [read, h]
  rfl

theorem read_eq_some : fs.read p = some bytes ↔
    ∃ i, fs.links.lookup p = some i ∧ fs.contents i = bytes :=
  Option.map_eq_some_iff

theorem read_write_self (h : fs.links.lookup p = some i) :
    (fs.write now i bytes).read p = some bytes := by
  simp [read, write, h]

/-- A write through a descriptor is not seen under the name of another file. -/
theorem read_write_of_not_link (h : fs.links.lookup p ≠ some i) :
    (fs.write now i bytes).read p = fs.read p := by
  refine Option.map_congr fun j hj => Function.update_of_ne ?_ ..
  rintro rfl
  exact h hj

/-- A write through the descriptor of `p` is seen under no other name. -/
theorem read_write_of_ne (h : fs.links.lookup p = some i) (hne : q ≠ p) :
    (fs.write now i bytes).read q = fs.read q :=
  read_write_of_not_link fun hq => hne (fs.links_inj q p i hq h)

theorem links_link_self : (fs.link now p).links.lookup p = some fs.next :=
  AList.lookup_insert _

theorem links_link_of_ne (hne : q ≠ p) : (fs.link now p).links.lookup q = fs.links.lookup q :=
  AList.lookup_insert_ne hne

theorem read_link_self : (fs.link now p).read p = some [] := by
  rw [read, links_link_self]
  exact congrArg some (Function.update_self ..)

theorem read_link_of_ne (hne : q ≠ p) : (fs.link now p).read q = fs.read q := by
  rw [read, links_link_of_ne hne, read]
  exact Option.map_congr fun j hj => Function.update_of_ne (Nat.ne_of_lt (fs.links_lt q j hj)) ..

theorem openCreate_of_link (h : fs.links.lookup p = some i) : fs.openCreate now p = (fs, i) := by
  unfold openCreate
  rw [h]

theorem links_openCreate_self :
    (fs.openCreate now p).1.links.lookup p = some (fs.openCreate now p).2 := by
  unfold openCreate
  split
  next h => exact h
  next => exact links_link_self

theorem links_openCreate_of_ne (hne : q ≠ p) :
    (fs.openCreate now p).1.links.lookup q = fs.links.lookup q := by
  unfold openCreate
  split
  next => rfl
  next => exact links_link_of_ne hne

theorem read_openCreate_self : (fs.openCreate now p).1.read p = some ((fs.read p).getD []) := by
  unfold openCreate
  split
  next h => simp [read_of_link h]
  next h =>
    rw [read_link_self, read, h]
    rfl

theorem read_openCreate_of_ne (hne : q ≠ p) : (fs.openCreate now p).1.read q = fs.read q := by
  unfold openCreate
  split
  next => rfl
  next => exact read_link_of_ne hne

theorem links_create_self : (fs.create now p).1.links.lookup p = some (fs.create now p).2 := by
  unfold create
  split
  next h => exact h
  next => exact links_link_self

theorem links_create_of_ne (hne : q ≠ p) :
    (fs.create now p).1.links.lookup q = fs.links.lookup q := by
  unfold create
  split
  next => rfl
  next => exact links_link_of_ne hne

theorem read_create_self : (fs.create now p).1.read p = some [] := by
  unfold create
  split
  next h => exact read_write_self h
  next => exact read_link_self

theorem contents_create : (fs.create now p).1.contents (fs.create now p).2 = [] := by
  have hread : (fs.create now p).1.read p = some [] := read_create_self
  rw [read_of_link links_create_self] at hread
  exact Option.some.inj hread

theorem read_create_of_ne (hne : q ≠ p) : (fs.create now p).1.read q = fs.read q := by
  unfold create
  split
  next h => exact read_write_of_ne h hne
  next => exact read_link_of_ne hne

theorem read_unlink_self : (fs.unlink p).read p = none := by
  show ((fs.links.erase p).lookup p).map _ = none
  rw [AList.lookup_erase]
  rfl

theorem links_unlink_of_ne (hne : q ≠ p) : (fs.unlink p).links.lookup q = fs.links.lookup q :=
  AList.lookup_erase_ne hne

theorem read_unlink_of_ne (hne : q ≠ p) : (fs.unlink p).read q = fs.read q := by
  rw [read, links_unlink_of_ne hne]
  rfl

/-- Opening a file leaves the inodes there are as they are. -/
theorem contents_link_of_lt {j : Nat} (hj : j < fs.next) :
    (fs.link now p).contents j = fs.contents j :=
  Function.update_of_ne (Nat.ne_of_lt hj) ..

theorem contents_openCreate_of_lt {j : Nat} (hj : j < fs.next) :
    (fs.openCreate now p).1.contents j = fs.contents j := by
  unfold openCreate
  split
  next => rfl
  next => exact contents_link_of_lt hj

theorem next_le_openCreate : fs.next ≤ (fs.openCreate now p).1.next := by
  unfold openCreate
  split
  exacts [Nat.le_refl _, Nat.le_succ _]

theorem next_le_create : fs.next ≤ (fs.create now p).1.next := by
  unfold create
  split
  exacts [Nat.le_refl _, Nat.le_succ _]

theorem exists_rename (h : fs.links.lookup p = some i) (q : ν) :
    ∃ fs', fs.rename p q = some fs' := by
  unfold rename
  split
  next hnone => simp [h] at hnone
  next => exact ⟨_, rfl⟩

section
variable (h : fs.rename p q = some fs')
include h

theorem rename_eq_some : ∃ i, ∃ hp : fs.links.lookup p = some i, fs' = fs.relink p q i hp := by
  unfold rename at h
  split at h <;> cases h
  exact ⟨_, _, rfl⟩

/-- The new name shows what the old one showed. -/
theorem read_rename_target : fs'.read q = fs.read p := by
  obtain ⟨i, hp, rfl⟩ := rename_eq_some h
  show (((fs.links.erase p).insert q i).lookup q).map _ = (fs.links.lookup p).map _
  rw [AList.lookup_insert, hp]
  rfl

variable {x : ν}

theorem links_rename_of_ne (hp : x ≠ p) (hq : x ≠ q) : fs'.links.lookup x = fs.links.lookup x := by
  obtain ⟨i, -, rfl⟩ := rename_eq_some h
  show ((fs.links.erase p).insert q i).lookup x = _
  rw [AList.lookup_insert_ne hq, AList.lookup_erase_ne hp]

theorem links_rename_source (hne : p ≠ q) : fs'.links.lookup p = none := by
  obtain ⟨i, -, rfl⟩ := rename_eq_some h
  show ((fs.links.erase p).insert q i).lookup p = none
  rw [AList.lookup_insert_ne hne, AList.lookup_erase]

theorem inodes_rename : fs'.contents = fs.contents ∧ fs'.next = fs.next := by
  obtain ⟨i, -, rfl⟩ := rename_eq_some h
  exact ⟨rfl, rfl⟩

theorem read_rename_of_ne (hp : x ≠ p) (hq : x ≠ q) : fs'.read x = fs.read x := by
  rw [read, links_rename_of_ne h hp hq, (inodes_rename h).1]
  rfl

end

/-! ## §3. The frame rules. -/

/-- The name shows the same file as before. -/
def SameAt (fs fs' : Fs ν β) (p : ν) : Prop :=
  fs'.links.lookup p = fs.links.lookup p ∧ fs'.read p = fs.read p

theorem SameAt.refl (fs : Fs ν β) (p : ν) : SameAt fs fs p := ⟨rfl, rfl⟩

theorem SameAt.contents (h : SameAt fs fs' p) (hp : fs.links.lookup p = some i) :
    fs'.contents i = fs.contents i := by
  have hread := h.2
  rw [read_of_link hp, read_of_link (h.1.trans hp)] at hread
  exact Option.some.inj hread

theorem sameAt_write (h : fs.links.lookup p = some i) (hne : q ≠ p) :
    SameAt fs (fs.write now i bytes) q :=
  ⟨rfl, read_write_of_ne h hne⟩

theorem sameAt_link (hne : q ≠ p) : SameAt fs (fs.link now p) q :=
  ⟨links_link_of_ne hne, read_link_of_ne hne⟩

theorem sameAt_openCreate (hne : q ≠ p) : SameAt fs (fs.openCreate now p).1 q :=
  ⟨links_openCreate_of_ne hne, read_openCreate_of_ne hne⟩

theorem sameAt_create (hne : q ≠ p) : SameAt fs (fs.create now p).1 q :=
  ⟨links_create_of_ne hne, read_create_of_ne hne⟩

theorem sameAt_unlink (hne : q ≠ p) : SameAt fs (fs.unlink p) q :=
  ⟨links_unlink_of_ne hne, read_unlink_of_ne hne⟩

theorem sameAt_rename {x : ν} (h : fs.rename p q = some fs') (hp : x ≠ p) (hq : x ≠ q) :
    SameAt fs fs' x :=
  ⟨links_rename_of_ne h hp hq, read_rename_of_ne h hp hq⟩

/-- The write that continues a file where it ends. -/
theorem overwrite_length [Inhabited β] (bytes chunk : List β) :
    overwrite bytes bytes.length chunk = bytes ++ chunk := by
  simp [overwrite]

end Fs

end Denia.Lib
