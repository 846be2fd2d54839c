/-
  Denia.Artifacts.Callers — `write_bundle` CALL BY CALL: several acquisitions of one image at a
  time, in one bundle directory (`src/artifacts/acquirer.rs`).

  Each file system call is a step.  The directory at `rootfs` is known by its inode:
  `remove_dir_all` goes on emptying the directory it has opened, and takes away what has the
  NAME at the end.  A staged rootfs has a name of its own, so it is kept with its call.  A call
  fails only as the files make it fail.

  Main results: `move_sound`, one step of a caller; `alone_writes_bundle`, a call that runs
  alone is `writeBundle`.
-/
import Denia.Artifacts.Acquirer
import Denia.Lib.Interleave
import Mathlib.Logic.Relation

namespace Denia.Artifacts

open Lib Oci
open Registry (ascii exampleSha)

/-! ## §1. The calls. -/

/-- A directory, with its entries in the order they were made. -/
structure Dir (ε : Type) where
  ino : Nat
  entries : List ε

/-- A file; one that was only truncated has no value. -/
structure OpenFile (α : Type) where
  ino : Nat
  value : Option α

/-- What the callers share: the bundle directory. -/
structure SharedBundle (ε : Type) where
  rootfs : Rootfs (Dir ε)
  sidecar : JsonFile RootfsOwnershipSidecar
  layersTmp : Option (OpenFile (List String))
  layersJson : Option (OpenFile (List String))
  nextIno : Nat

/-- What the callers agree on: the settings, the entries the layers unpack to, and the digests
of the layers. -/
structure BundleJob (ε : Type) where
  ownership : RootfsOwnershipSidecar
  capChown : Bool
  path : String
  image : List ε
  digests : List String

/-- The next call of a caller. -/
inductive BundlePc (ε : Type) where
  | createDir
  | stat
  | readSidecar
  | reclaimList
  | reclaim (todo : List ε)
  | openRootfs
  | unlinkEntries (ino : Nat)
  | rmdir
  | mkStaged
  | unpack (ino : Nat) (made todo : List ε)
  | setPermissions (staged : Dir ε)
  | lchown (staged : Dir ε)
  | rename (staged : Dir ε)
  | removeStaged (error : Option IoError)
  | truncateSidecar
  | writeSidecar
  | truncateLayers
  | writeLayers (ino : Nat)
  | renameLayers
  | done (result : Except IoError Unit)

/-- `ENOENT`. -/
def notFound : IoError := Errno.toIo .noent

section
variable {ε : Type}

/-- `rename` of a directory: only one that is empty is replaced. -/
def renameDir (rootfs : Rootfs (Dir ε)) : Except IoError Unit :=
  match rootfs with
  | .absent => .ok ()
  | .other => .error (Errno.toIo .notdir)
  | .dir d => if d.entries = [] then .ok () else .error (Errno.toIo .notempty)

/-- `rootfs.exists()`. -/
def Rootfs.isThere (rootfs : Rootfs (Dir ε)) : Bool :=
  match rootfs with
  | .absent => false
  | _ => true

/-- A write through a descriptor. -/
def OpenFile.fill {α : Type} (ino : Nat) (value : α) (file : OpenFile α) : OpenFile α :=
  if file.ino = ino then { file with value := some value } else file

/-- The opened directory has no entries left, or is no longer the one of that name. -/
def Rootfs.emptied (rootfs : Rootfs (Dir ε)) (ino : Nat) : Bool :=
  match rootfs with
  | .dir d => d.ino ≠ ino ∨ d.entries = []
  | _ => true

variable (job : BundleJob ε) (s : SharedBundle ε)

/-- The sidecar matches. -/
def SharedBundle.sidecarMatches : Bool := s.sidecar = .holds job.ownership

/-- One entry of the directory at `rootfs` is unlinked. -/
def SharedBundle.unlinkEntry (k : Nat) : SharedBundle ε :=
  match s.rootfs with
  | .dir d =>
      { s with rootfs := .dir { d with entries := d.entries.eraseIdx (k % d.entries.length) } }
  | _ => s

/-- `create` of `layers.json.tmp`. -/
def SharedBundle.truncateTmp : SharedBundle ε × Nat :=
  match s.layersTmp with
  | some file => ({ s with layersTmp := some { file with value := none } }, file.ino)
  | none => ({ s with layersTmp := some ⟨s.nextIno, none⟩, nextIno := s.nextIno + 1 }, s.nextIno)

/-- One call of `write_bundle`; `k` is the entry `read_dir` comes to next. -/
def advanceBundle [DecidableEq ε] (pc : BundlePc ε) (k : Nat) :
    Option (SharedBundle ε × BundlePc ε) :=
  match pc with
  | .createDir => some (s, .stat)
  | .stat =>
      match s.rootfs with
      | .absent => some (s, .mkStaged)
      | .other => some (s, .done (.error
          ⟨.invalidData, "rootfs path is not a directory: " ++ job.path⟩))
      | .dir _ => some (s, .readSidecar)
  | .readSidecar =>
      if s.sidecarMatches job then some (s, .truncateLayers)
      else some (s, if job.capChown then .reclaimList else .openRootfs)
  | .reclaimList =>
      match s.rootfs with
      | .absent => some (s, .done (.error notFound))
      | .other => some (s, .reclaim [])
      | .dir d => some (s, .reclaim d.entries.reverse)
  | .reclaim [] =>
      match s.rootfs with
      | .absent => some (s, .done (.error notFound))
      | _ => some (s, .openRootfs)
  | .reclaim (entry :: todo) =>
      match s.rootfs with
      | .dir d =>
          if entry ∈ d.entries then some (s, .reclaim todo)
          else some (s, .done (.error notFound))
      | _ => some (s, .done (.error notFound))
  | .openRootfs =>
      match s.rootfs with
      | .absent => some (s, .done (.error notFound))
      | .other => some (s, .done (.error (Errno.toIo .notdir)))
      | .dir d => some (s, .unlinkEntries d.ino)
  | .unlinkEntries ino =>
      if s.rootfs.emptied ino then some (s, .rmdir)
      else some (s.unlinkEntry k, .unlinkEntries ino)
  | .rmdir =>
      match s.rootfs with
      | .absent => some (s, .mkStaged)
      | .other => some (s, .done (.error (Errno.toIo .notdir)))
      | .dir d =>
          if d.entries = [] then some ({ s with rootfs := .absent }, .mkStaged)
          else some (s, .done (.error (Errno.toIo .notempty)))
  | .mkStaged => some ({ s with nextIno := s.nextIno + 1 }, .unpack s.nextIno [] job.image)
  | .unpack ino made [] => some (s, .setPermissions ⟨ino, made⟩)
  | .unpack ino made (entry :: todo) => some (s, .unpack ino (made ++ [entry]) todo)
  | .setPermissions staged => some (s, if job.capChown then .lchown staged else .rename staged)
  | .lchown staged => some (s, .rename staged)
  | .rename staged =>
      match renameDir s.rootfs with
      | .ok _ => some ({ s with rootfs := .dir staged }, .truncateSidecar)
      | .error e =>
          if e.kind = .alreadyExists ∧ s.rootfs.isThere then some (s, .removeStaged none)
          else some (s, .removeStaged (some e))
  | .removeStaged none => some (s, .truncateSidecar)
  | .removeStaged (some e) => some (s, .done (.error e))
  | .truncateSidecar => some ({ s with sidecar := .garbled }, .writeSidecar)
  | .writeSidecar => some ({ s with sidecar := .holds job.ownership }, .truncateLayers)
  | .truncateLayers => some (s.truncateTmp.1, .writeLayers s.truncateTmp.2)
  | .writeLayers ino =>
      some ({ s with
        layersTmp := s.layersTmp.map (·.fill ino job.digests)
        layersJson := s.layersJson.map (·.fill ino job.digests) }, .renameLayers)
  | .renameLayers =>
      match s.layersTmp with
      | none => some (s, .done (.error notFound))
      | some file => some ({ s with layersTmp := none, layersJson := some file }, .done (.ok ()))
  | .done _ => none

/-- The callers. -/
def bundleCalls [DecidableEq ε] : Program (SharedBundle ε) (BundlePc ε) Unit Nat Empty where
  start _ := .createDir
  advance s pc k := advanceBundle job s pc k
  outer _ e := nomatch e

/-- A caller starts, or makes a call. -/
abbrev BundleEvent := Event Unit Nat Empty

/-! ## §2. What is asked for. -/

/-- **The rootfs is there, and it is the complete unpack of the layers.** -/
def SharedBundle.Complete : Prop := ∃ d, s.rootfs = .dir d ∧ d.entries = job.image

/-- A caller that looks now keeps the rootfs. -/
def SharedBundle.Signed : Prop := (∃ d, s.rootfs = .dir d) ∧ s.sidecar = .holds job.ownership

/-- The caller has found no rootfs that it could keep, and its sidecar is not written. -/
def BundlePc.writing : BundlePc ε → Bool
  | .reclaimList | .reclaim _ | .openRootfs | .unlinkEntries _ | .rmdir | .mkStaged
  | .unpack _ _ _ | .setPermissions _ | .lchown _ | .rename _ | .removeStaged _
  | .truncateSidecar | .writeSidecar => true
  | _ => false

/-- The caller has `layers.json.tmp` open, or is about to rename it. -/
def BundlePc.publishing : BundlePc ε → Bool
  | .writeLayers _ | .renameLayers => true
  | _ => false

/-- The caller is about to replace the rootfs, or is doing it. -/
def BundlePc.Claims (pc : BundlePc ε) : Prop :=
  pc.writing = true ∨ pc = .readSidecar ∧ ¬ s.Signed job

/-- **The condition on a step**: a caller looks at the rootfs only while no other caller is
about to replace it, and opens `layers.json.tmp` only while no other caller has it open. -/
def inTurn (σ : System (SharedBundle ε) (BundlePc ε)) : BundleEvent → Prop
  | .move i _ => ∀ pc, σ.procs[i]? = some pc →
      (pc = .stat → ∀ (j : Nat) q, σ.procs[j]? = some q → ¬ q.Claims job σ.shared) ∧
      (pc = .truncateLayers → ∀ (j : Nat) q, σ.procs[j]? = some q → q.publishing = false)
  | _ => True

/-! ## §3. One step. -/

/-- The caller has not looked at the rootfs. -/
def BundlePc.waiting : BundlePc ε → Bool
  | .createDir | .stat => true
  | _ => false

/-- What a caller relies on. -/
def BundlePc.Sound : BundlePc ε → Prop
  | .createDir | .stat => True
  | .readSidecar => ∃ d, s.rootfs = .dir d
  | .reclaimList | .openRootfs =>
      (∃ d, s.rootfs = .dir d) ∧ s.sidecarMatches job = false
  | .reclaim todo =>
      (∃ d, s.rootfs = .dir d ∧ ∀ entry ∈ todo, entry ∈ d.entries) ∧
        s.sidecarMatches job = false
  | .unlinkEntries ino =>
      (∃ d, s.rootfs = .dir d ∧ d.ino = ino) ∧ s.sidecarMatches job = false
  | .rmdir => ∃ d, s.rootfs = .dir d ∧ d.entries = []
  | .mkStaged => s.rootfs = .absent
  | .unpack _ made todo => s.rootfs = .absent ∧ made ++ todo = job.image
  | .setPermissions staged | .lchown staged | .rename staged =>
      s.rootfs = .absent ∧ staged.entries = job.image
  | .removeStaged _ => False
  | .truncateSidecar | .writeSidecar => s.Complete job
  | .truncateLayers | .done (.ok _) => s.Signed job
  | .writeLayers _ | .renameLayers => s.Signed job ∧ s.layersTmp.isSome = true
  | .done (.error _) => False

/-- The part of the bundle that callers decide on. -/
def SharedBundle.SameRootfs (s s' : SharedBundle ε) : Prop :=
  s'.rootfs = s.rootfs ∧ s'.sidecar = s.sidecar

/-- The bundle has no file where the rootfs belongs, and a signed rootfs is complete. -/
def SharedBundle.Kept : Prop := s.rootfs ≠ .other ∧ (s.Signed job → s.Complete job)

variable {job} {s s' : SharedBundle ε} {pc pc' q : BundlePc ε} {k : Nat}

theorem SharedBundle.SameRootfs.signed (h : s.SameRootfs s') : s'.Signed job ↔ s.Signed job := by
  unfold SharedBundle.Signed
  rw [h.1, h.2]

theorem SharedBundle.SameRootfs.complete (h : s.SameRootfs s') :
    s'.Complete job ↔ s.Complete job := by
  unfold SharedBundle.Complete
  rw [h.1]

theorem SharedBundle.SameRootfs.kept (h : s.SameRootfs s') (hs : s.Kept job) : s'.Kept job := by
  refine ⟨?_, fun hsigned => h.complete.mpr (hs.2 (h.signed.mp hsigned))⟩
  rw [h.1]
  exact hs.1

theorem SharedBundle.SameRootfs.claims (h : s.SameRootfs s') :
    pc.Claims job s' ↔ pc.Claims job s := by
  unfold BundlePc.Claims
  rw [h.signed]

/-- What a caller relies on is not lost where the rootfs and the sidecar stay, and
`layers.json.tmp` as long as it needs it. -/
theorem BundlePc.Sound.frame (hq : q.Sound job s) (h : s.SameRootfs s')
    (htmp : q.publishing = true → s'.layersTmp.isSome = s.layersTmp.isSome) : q.Sound job s' := by
  have hmatch : s'.sidecarMatches job = s.sidecarMatches job := by
    unfold SharedBundle.sidecarMatches
    rw [h.2]
  cases q with
  | writeLayers | renameLayers => exact ⟨h.signed.mpr hq.1, (htmp rfl).trans hq.2⟩
  | done result => cases result <;> simp_all [BundlePc.Sound, h.signed]
  | _ => simp_all [BundlePc.Sound, h.1, h.signed, h.complete]

theorem kept_of_unsigned (hdir : s.rootfs ≠ .other) (h : s.sidecarMatches job = false) :
    s.Kept job :=
  ⟨hdir, fun hsigned => absurd (decide_eq_true hsigned.2) (Bool.eq_false_iff.mp h)⟩

theorem kept_of_complete (h : s.Complete job) : s.Kept job := by
  refine ⟨?_, fun _ => h⟩
  obtain ⟨d, hdir, -⟩ := h
  rw [hdir]
  nofun

section
variable [DecidableEq ε]

/-- A caller that waits or claims nothing leaves the rootfs and the sidecar alone. -/
theorem sameRootfs_of_not_writing (h : advanceBundle job s pc k = some (s', pc'))
    (hpc : pc.writing = false) : s.SameRootfs s' := by
  cases pc with
  | truncateLayers =>
    cases h
    unfold SharedBundle.truncateTmp
    split <;> exact ⟨rfl, rfl⟩
  | createDir | stat | readSidecar | writeLayers | renameLayers | done =>
    grind [advanceBundle, SharedBundle.SameRootfs]
  | _ => cases hpc

/-- **What a caller relies on, it relies on in its next state**, and it leaves the bundle
kept. -/
theorem move_sound (hs : s.Kept job) (hpc : pc.Sound job s)
    (h : advanceBundle job s pc k = some (s', pc')) : s'.Kept job ∧ pc'.Sound job s' := by
  cases pc with
  | createDir | stat | readSidecar | reclaimList | openRootfs | mkStaged | lchown
  | setPermissions =>
    grind [advanceBundle, BundlePc.Sound, SharedBundle.Kept, SharedBundle.sidecarMatches,
      SharedBundle.Signed, SharedBundle.Complete]
  | reclaim todo => cases todo <;> grind [advanceBundle, BundlePc.Sound]
  | unlinkEntries =>
    -- the sidecar does not match, so nothing is promised of this rootfs
    obtain ⟨⟨d, hdir, hino⟩, hmatch⟩ := hpc
    simp only [advanceBundle] at h
    split at h <;> cases h
    next hempty =>
      rw [hdir] at hempty
      exact ⟨hs, d, hdir, (of_decide_eq_true hempty).resolve_left fun hne => hne hino⟩
    next =>
      unfold SharedBundle.unlinkEntry
      rw [hdir]
      exact ⟨kept_of_unsigned nofun hmatch, ⟨_, rfl, hino⟩, hmatch⟩
  | rmdir =>
    obtain ⟨d, hdir, hempty⟩ := hpc
    simp only [advanceBundle, hdir, if_pos hempty] at h
    cases h
    refine ⟨⟨nofun, ?_⟩, rfl⟩
    rintro ⟨⟨d', hd'⟩, -⟩
    cases hd'
  | unpack ino made todo => cases todo <;> grind [advanceBundle, BundlePc.Sound]
  | rename staged =>
    -- a complete directory takes the place of none
    obtain ⟨habsent, hstaged⟩ := hpc
    simp only [advanceBundle, habsent, renameDir] at h
    cases h
    have hcomplete : SharedBundle.Complete job { s with rootfs := .dir staged } :=
      ⟨staged, rfl, hstaged⟩
    exact ⟨kept_of_complete hcomplete, hcomplete⟩
  | removeStaged => exact hpc.elim
  | truncateSidecar =>
    cases h
    have hcomplete : SharedBundle.Complete job { s with sidecar := .garbled } := hpc
    exact ⟨kept_of_complete hcomplete, hcomplete⟩
  | writeSidecar =>
    cases h
    have hcomplete : SharedBundle.Complete job { s with sidecar := .holds job.ownership } := hpc
    obtain ⟨d, hdir, -⟩ := hpc
    exact ⟨kept_of_complete hcomplete, ⟨d, hdir⟩, rfl⟩
  | truncateLayers =>
    have hsame := sameRootfs_of_not_writing h rfl
    cases h
    refine ⟨hsame.kept hs, hsame.signed.mpr hpc, ?_⟩
    unfold SharedBundle.truncateTmp
    split <;> rfl
  | writeLayers =>
    have hsame := sameRootfs_of_not_writing h rfl
    cases h
    refine ⟨hsame.kept hs, hsame.signed.mpr hpc.1, ?_⟩
    rw [Option.isSome_map]
    exact hpc.2
  | renameLayers =>
    have hsame := sameRootfs_of_not_writing h rfl
    obtain ⟨file, htmp⟩ := Option.isSome_iff_exists.mp hpc.2
    simp only [advanceBundle, htmp] at h
    cases h
    exact ⟨hsame.kept hs, hsame.signed.mpr hpc.1⟩
  | done => cases h

/-- A caller that claims the rootfs has claimed it before, or has just looked at one that it
cannot keep. -/
theorem claims_of_move (hclaims : pc'.Claims job s')
    (h : advanceBundle job s pc k = some (s', pc')) :
    pc.Claims job s ∨ pc = .stat ∧ ¬ s.Signed job := by
  cases hwriting : pc.writing with
  | true => exact .inl (.inl hwriting)
  | false =>
    have hsame := sameRootfs_of_not_writing h hwriting
    rw [hsame.claims] at hclaims
    cases pc with
    | stat =>
      refine .inr ⟨rfl, ?_⟩
      simp only [advanceBundle] at h
      split at h <;> cases h
      next habsent =>
        rintro ⟨⟨d, hdir⟩, -⟩
        simp [habsent] at hdir
      next =>
        rcases hclaims with hclaims | ⟨hclaims, -⟩ <;> cases hclaims
      next =>
        rcases hclaims with hclaims | ⟨-, hunsigned⟩
        · cases hclaims
        · exact hunsigned
    | readSidecar =>
      simp only [advanceBundle] at h
      split at h <;> cases h
      next => rcases hclaims with hclaims | ⟨hclaims, -⟩ <;> cases hclaims
      next hmatch => exact .inl (.inr ⟨rfl, fun hsigned => hmatch (decide_eq_true hsigned.2)⟩)
    | createDir | truncateLayers | writeLayers | renameLayers | done =>
      grind [advanceBundle, BundlePc.Claims, BundlePc.writing]
    | _ => cases hwriting

/-- `layers.json.tmp` changes only in the hands of a caller that has it, or opens it. -/
theorem publishing_of_move (h : advanceBundle job s pc k = some (s', pc')) :
    (pc.publishing = true ∨ pc = .truncateLayers) ∨
      pc'.publishing = false ∧ s'.layersTmp = s.layersTmp := by
  cases pc with
  | truncateLayers => exact .inl (.inr rfl)
  | writeLayers | renameLayers => exact .inl (.inl rfl)
  | reclaim todo | unpack _ _ todo => cases todo <;> grind [advanceBundle, BundlePc.publishing]
  | removeStaged error => cases error <;> grind [advanceBundle, BundlePc.publishing]
  | _ => grind [advanceBundle, BundlePc.publishing, SharedBundle.unlinkEntry]

end

end

/-! ## §4. A call that runs alone. -/

/-- A JSON file, as a whole `fs::write` or `read` sees it. -/
def JsonFile.ofFile {α : Type} : Option (OpenFile α) → JsonFile α
  | none => .missing
  | some ⟨_, none⟩ => .garbled
  | some ⟨_, some value⟩ => .holds value

/-- The tree at `rootfs`, without its inode. -/
def Rootfs.entries {ε : Type} : Rootfs (Dir ε) → Rootfs (List ε)
  | .absent => .absent
  | .other => .other
  | .dir d => .dir d.entries

section
variable {ε : Type}

/-- The bundle of `writeBundle` that the shared one shows. -/
structure SharedBundle.Shows (s : SharedBundle ε) (b : Bundle (List ε)) : Prop where
  rootfs : b.rootfs = s.rootfs.entries
  sidecar : b.sidecar = s.sidecar
  layersTmp : b.layersTmp = .ofFile s.layersTmp
  layersJson : b.layersJson = .ofFile s.layersJson

/-- The calls of an acquirer, for layers that unpack to `image`. -/
def Acquirer.job (acq : Acquirer (List ε)) (path : String) (layers : List PulledLayer)
    (image : List ε) : BundleJob ε :=
  ⟨acq.ownership, acq.capChown, path, image, layers.map (·.digest)⟩

variable [DecidableEq ε]

/-- One call, with nobody else there. -/
def Alone (job : BundleJob ε) (x y : SharedBundle ε × BundlePc ε) : Prop :=
  ∃ k, advanceBundle job x.1 x.2 k = some y

variable {job : BundleJob ε} {s : SharedBundle ε} {d : Dir ε}

theorem alone_reclaim (hdir : s.rootfs = .dir d) {todo : List ε}
    (htodo : ∀ entry ∈ todo, entry ∈ d.entries) :
    Relation.ReflTransGen (Alone job) (s, .reclaim todo) (s, .openRootfs) := by
  induction todo with
  | nil =>
    refine .single ⟨0, ?_⟩
    simp only [advanceBundle, hdir]
  | cons entry todo ih =>
    refine .head ⟨0, ?_⟩ (ih fun e he => htodo e (List.mem_cons_of_mem _ he))
    simp only [advanceBundle, hdir, if_pos (htodo entry List.mem_cons_self)]

/-- The entries are unlinked one by one, the first one first. -/
theorem alone_unlink (hdir : s.rootfs = .dir d) :
    Relation.ReflTransGen (Alone job) (s, .unlinkEntries d.ino)
      ({ s with rootfs := .dir { d with entries := [] } }, .rmdir) := by
  obtain ⟨ino, entries⟩ := d
  induction entries generalizing s with
  | nil =>
    have hsame : { s with rootfs := .dir ⟨ino, []⟩ } = s := by
      rw [← hdir]
    refine .single ⟨0, ?_⟩
    have hempty : s.rootfs.emptied ino = true := by
      rw [hdir]
      exact decide_eq_true (.inr rfl)
    simp only [hsame, advanceBundle, hempty, if_true]
  | cons entry entries ih =>
    refine .head ⟨0, ?_⟩ (ih (s := { s with rootfs := .dir ⟨ino, entries⟩ }) rfl)
    simp [advanceBundle, Rootfs.emptied, SharedBundle.unlinkEntry, hdir]

theorem alone_unpack {ino : Nat} {made todo : List ε} :
    Relation.ReflTransGen (Alone job) (s, .unpack ino made todo)
      (s, .setPermissions ⟨ino, made ++ todo⟩) := by
  induction todo generalizing made with
  | nil =>
    refine .single ⟨0, ?_⟩
    rw [List.append_nil]
    rfl
  | cons entry todo ih =>
    refine .head (b := (s, .unpack ino (made ++ [entry]) todo)) ⟨0, rfl⟩ ?_
    have hrest : Relation.ReflTransGen (Alone job) (s, .unpack ino (made ++ [entry]) todo)
        (s, .setPermissions ⟨ino, made ++ [entry] ++ todo⟩) := ih
    rw [List.append_assoc] at hrest
    exact hrest

/-- From no rootfs to a signed one. -/
theorem alone_stage (habsent : s.rootfs = .absent) :
    Relation.ReflTransGen (Alone job) (s, .mkStaged)
      ({ s with
        rootfs := .dir ⟨s.nextIno, job.image⟩
        sidecar := .holds job.ownership
        nextIno := s.nextIno + 1 }, .truncateLayers) := by
  refine .head (b := ({ s with nextIno := s.nextIno + 1 }, .unpack s.nextIno [] job.image))
    ⟨0, rfl⟩ ?_
  refine alone_unpack.trans ?_
  have hrename : Relation.ReflTransGen (Alone job)
      ({ s with nextIno := s.nextIno + 1 }, .rename ⟨s.nextIno, job.image⟩)
      ({ s with
        rootfs := .dir ⟨s.nextIno, job.image⟩
        sidecar := .holds job.ownership
        nextIno := s.nextIno + 1 }, .truncateLayers) := by
    refine .head (b := ({ s with
      rootfs := .dir ⟨s.nextIno, job.image⟩
      nextIno := s.nextIno + 1 }, .truncateSidecar)) ⟨0, ?_⟩ ?_
    · simp only [advanceBundle, habsent, renameDir]
    · exact .head ⟨0, rfl⟩ (.single ⟨0, rfl⟩)
  cases hcap : job.capChown with
  | true =>
    refine .head (b := ({ s with nextIno := s.nextIno + 1 }, .lchown ⟨s.nextIno, job.image⟩))
      ⟨0, ?_⟩ (.head ⟨0, rfl⟩ hrename)
    simp only [advanceBundle, hcap, if_true, List.nil_append]
  | false =>
    refine .head ⟨0, ?_⟩ hrename
    simp only [advanceBundle, hcap, Bool.false_eq_true, if_false, List.nil_append]

/-- A rootfs that cannot be kept goes. -/
theorem alone_remove (hdir : s.rootfs = .dir d) (hmatch : s.sidecarMatches job = false) :
    Relation.ReflTransGen (Alone job) (s, .readSidecar)
      ({ s with rootfs := .absent }, .mkStaged) := by
  have hremove : Relation.ReflTransGen (Alone job) (s, .openRootfs)
      ({ s with rootfs := .absent }, .mkStaged) := by
    refine .head (b := (s, .unlinkEntries d.ino)) ⟨0, ?_⟩ ((alone_unlink hdir).tail ⟨0, ?_⟩)
    · simp only [advanceBundle, hdir]
    · simp only [advanceBundle, if_true]
  cases hcap : job.capChown with
  | true =>
    refine .head (b := (s, .reclaimList)) ⟨0, ?_⟩
      (.head (b := (s, .reclaim d.entries.reverse)) ⟨0, ?_⟩
        ((alone_reclaim hdir fun _ he => List.mem_reverse.mp he).trans hremove))
    · simp only [advanceBundle, hmatch, hcap, Bool.false_eq_true, if_false, if_true]
    · simp only [advanceBundle, hdir]
  | false =>
    refine .head (b := (s, .openRootfs)) ⟨0, ?_⟩ hremove
    simp only [advanceBundle, hmatch, hcap, Bool.false_eq_true, if_false]

/-- The layers are published. -/
theorem alone_publish (job : BundleJob ε) (s : SharedBundle ε) :
    ∃ s', Relation.ReflTransGen (Alone job) (s, .truncateLayers) (s', .done (.ok ())) ∧
      s.SameRootfs s' ∧ s'.layersTmp = none ∧
      ∃ ino, s'.layersJson = some ⟨ino, some job.digests⟩ := by
  obtain ⟨s1, ino, htruncate, hsame, htmp⟩ : ∃ s1 ino,
      advanceBundle job s .truncateLayers 0 = some (s1, .writeLayers ino) ∧
        s.SameRootfs s1 ∧ s1.layersTmp = some ⟨ino, none⟩ := by
    refine ⟨s.truncateTmp.1, s.truncateTmp.2, rfl, ?_⟩
    unfold SharedBundle.truncateTmp
    split <;> exact ⟨⟨rfl, rfl⟩, rfl⟩
  refine ⟨{ s1 with layersTmp := none, layersJson := some ⟨ino, some job.digests⟩ }, ?_, hsame,
    rfl, ino, rfl⟩
  refine .head ⟨0, htruncate⟩ (.head ⟨0, rfl⟩ (.single ⟨0, ?_⟩))
  simp [advanceBundle, htmp, OpenFile.fill]

variable {acq : Acquirer (List ε)} {path : String} {layers : List PulledLayer} {image : List ε}
  {b : Bundle (List ε)}

/-- The rootfs that a `write_bundle` without a failure leaves. -/
def rootfsAfter (acq : Acquirer (List ε)) (b : Bundle (List ε)) (image : List ε) :
    Rootfs (List ε) :=
  match b.rootfs with
  | .dir tree => if acq.sidecarMatches b then .dir tree else .dir image
  | _ => .dir image

omit [DecidableEq ε] in
/-- `write_bundle` without a failure. -/
theorem writeBundle_fine (hunpack : acq.unpack layers = .ok image) (hother : b.rootfs ≠ .other) :
    Returns (writeBundle acq .fine path layers) b ⟨⟩
      { b with
        rootfs := rootfsAfter acq b image
        sidecar := .holds acq.ownership
        layersTmp := .missing
        layersJson := .holds (layers.map (·.digest)) } := by
  have hstage : ∀ b : Bundle (List ε), Returns (stageRootfs acq .fine layers) b ⟨⟩
      { b with rootfs := .dir image, sidecar := .holds acq.ownership } := by
    intro b
    unfold stageRootfs shiftStagedOwners
    rw [hunpack]
    cases acq.capChown <;> rfl
  have hlayers : ∀ b : Bundle (List ε), Returns (writeLayers .fine layers) b ⟨⟩
      { b with layersTmp := .missing, layersJson := .holds (layers.map (·.digest)) } :=
    fun b => rfl
  have hensure : Returns (ensureRootfs acq .fine path layers) b ⟨⟩
      { b with rootfs := rootfsAfter acq b image, sidecar := .holds acq.ownership } := by
    unfold ensureRootfs rootfsAfter
    rw [returns_get_bind]
    split
    next hrootfs => exact absurd hrootfs hother
    next habsent =>
      rw [habsent]
      exact hstage b
    next tree hdir =>
      rw [hdir]
      split
      next hmatch =>
        refine returns_pure.mpr ⟨rfl, ?_⟩
        rw [← of_decide_eq_true hmatch]
        show { b with rootfs := Rootfs.dir tree } = b
        rw [← hdir]
      next hmatch =>
        unfold reclaimOwner
        cases acq.capChown
        · exact hstage { b with rootfs := .absent }
        · exact hstage { b with rootfs := .absent }
  exact returns_call_bind.mpr ⟨rfl, returns_call_bind.mpr
    ⟨rfl, returns_bind.mpr ⟨⟨⟩, _, hensure, hlayers _⟩⟩⟩

/-- **A call that runs alone is `writeBundle`**, as far as the bundle shows. -/
theorem alone_writes_bundle (hunpack : acq.unpack layers = .ok image) (hs : s.Shows b)
    (hother : s.rootfs ≠ .other) :
    ∃ s' b', Relation.ReflTransGen (Alone (acq.job path layers image)) (s, .createDir)
        (s', .done (.ok ())) ∧
      Returns (writeBundle acq .fine path layers) b ⟨⟩ b' ∧ s'.Shows b' := by
  have hother' : b.rootfs ≠ .other := by
    rw [hs.rootfs]
    intro hentries
    cases hrootfs : s.rootfs with
    | other => exact hother hrootfs
    | absent | dir =>
      rw [hrootfs] at hentries
      cases hentries
  -- in each case the rootfs is there and signed before the layers are published
  have hready : ∃ s1, Relation.ReflTransGen (Alone (acq.job path layers image)) (s, .createDir)
        (s1, .truncateLayers) ∧
      s1.rootfs.entries = rootfsAfter acq b image ∧ s1.sidecar = .holds acq.ownership := by
    unfold rootfsAfter
    cases hrootfs : s.rootfs with
    | other => exact absurd hrootfs hother
    | absent =>
      have hstat : Alone (acq.job path layers image) (s, .stat) (s, .mkStaged) :=
        ⟨0, by simp only [advanceBundle, hrootfs]⟩
      refine ⟨_, .head ⟨0, rfl⟩ (.head hstat (alone_stage hrootfs)), ?_, rfl⟩
      rw [hs.rootfs, hrootfs]
      rfl
    | dir =>
      have hstat : Alone (acq.job path layers image) (s, .stat) (s, .readSidecar) :=
        ⟨0, by simp only [advanceBundle, hrootfs]⟩
      have hsame : s.sidecarMatches (acq.job path layers image) = acq.sidecarMatches b := by
        unfold SharedBundle.sidecarMatches Acquirer.sidecarMatches
        rw [hs.sidecar]
        rfl
      rw [hs.rootfs, hrootfs]
      cases hmatch : acq.sidecarMatches b with
      | true =>
        rw [hmatch] at hsame
        refine ⟨s, .head ⟨0, rfl⟩ (.head hstat (.single ⟨0, ?_⟩)), ?_, of_decide_eq_true hsame⟩
        · simp only [advanceBundle, hsame, if_true]
        · rw [hrootfs]
          rfl
      | false =>
        rw [hmatch] at hsame
        exact ⟨_, .head ⟨0, rfl⟩ (.head hstat
          ((alone_remove hrootfs hsame).trans (alone_stage rfl))), rfl, rfl⟩
  obtain ⟨s1, hrun, hentries, hsigned⟩ := hready
  obtain ⟨s', hpublish, hsame, htmp, ino, hjson⟩ :=
    alone_publish (acq.job path layers image) s1
  refine ⟨s', _, hrun.trans hpublish, writeBundle_fine hunpack hother', ?_, ?_, ?_, ?_⟩
  · show _ = s'.rootfs.entries
    rw [hsame.1, hentries]
  · show _ = s'.sidecar
    rw [hsame.2, hsigned]
  · show _ = JsonFile.ofFile s'.layersTmp
    rw [htmp]
    rfl
  · show _ = JsonFile.ofFile s'.layersJson
    rw [hjson]
    rfl

end

/-- Images of one entry. -/
def oneEntry : Acquirer (List String) where
  config := ⟨["srv", "artifacts"], ["srv", "uploads"], "git", "buildctl", 100000, 65536⟩
  cx := exampleCodec
  parseUuid _ := none
  unpack _ := .ok ["bin"]
  reads := ⟨fun _ _ => .error notFound, fun _ _ => false⟩
  capChown := true

/-- The layer "ab". -/
def abLayer : PulledLayer := ⟨exampleSha (ascii "ab"), .none, ascii "ab"⟩

/-- A directory with an older rootfs, no sidecar and an empty `layers.json`, ... -/
def unsigned : SharedBundle String :=
  ⟨.dir ⟨0, ["old", "lib"]⟩, .missing, none, some ⟨1, some []⟩, 2⟩

/-- ... and the bundle it shows. -/
def unsignedBundle : Bundle (List String) :=
  ⟨.dir ["old", "lib"], .missing, .missing, .holds [], .missing⟩

/-- The older rootfs is replaced, and so is `layers.json`. -/
theorem alone_replaces_unsigned :
    ∃ s' b', Relation.ReflTransGen (Alone (oneEntry.job "b" [abLayer] ["bin"]))
        (unsigned, .createDir) (s', .done (.ok ())) ∧
      Returns (writeBundle oneEntry .fine "b" [abLayer]) unsignedBundle ⟨⟩ b' ∧ s'.Shows b' ∧
      b'.rootfs = .dir ["bin"] ∧ b'.layersJson = .holds [abLayer.digest] := by
  have hshows : unsigned.Shows unsignedBundle := ⟨rfl, rfl, rfl, rfl⟩
  obtain ⟨s', b', hrun, hreturns, hshows'⟩ :=
    @alone_writes_bundle _ _ unsigned oneEntry "b" [abLayer] ["bin"] _ rfl hshows nofun
  refine ⟨s', b', hrun, hreturns, hshows', ?_⟩
  obtain rfl : b' = _ := (congrArg Prod.snd hreturns).symm
  decide +kernel

end Denia.Artifacts
