/-
  Denia.Artifacts.Reuse — WHOSE rootfs an acquisition leaves in its bundle.

  An acquisition that returns has either unpacked its own layers, or kept the rootfs that
  stood under the name of its digest.  `layers.json` and `process.json` it writes in both
  cases, so a rootfs that is kept and is not the image's own is described as if it were.

  Main results: `reusable_origin`, where a reusable rootfs comes from;
  `bundle_holds_image_iff` and `bundle_holds_image_by_digest`, after any history.
-/
import Denia.Artifacts.Acquirer
import Denia.Oci.Streamed
import Denia.Registry.ContentAddressed
import Mathlib.Data.List.GetD

namespace Denia.Artifacts

open Lib Oci
open Registry (Bytes sha256Prefix digestOf ascii exampleSha)

section
variable {Tree : Type}

/-- The bundle offers a rootfs for reuse. -/
def Bundle.Reusable (acq : Acquirer Tree) (b : Bundle Tree) (tree : Tree) : Prop :=
  b.rootfs = .dir tree ∧ b.sidecar = .holds acq.ownership

/-- **The bundle holds the image**: its rootfs is the unpack of the image's layers, and both
JSON files describe the image. -/
def Bundle.HoldsImage (acq : Acquirer Tree) (image : PulledImage) (b : Bundle Tree) : Prop :=
  ∃ tree process, b.rootfs = .dir tree ∧ acq.unpack image.layers = .ok tree ∧
    b.layersJson = .holds (image.layers.map (·.digest)) ∧
    rootfsBundleFromOciConfig acq.reads image.config tree acq.config.usernsSize = .ok process ∧
    b.processJson = .holds process

/-! ## §1. What a bundle's functions that returned have done. -/

variable {acq : Acquirer Tree} {io : BundleIo Tree} {layers : List PulledLayer}
  {b b' : Bundle Tree} {r : PUnit}

/-- Nothing fails, or the failure is one that is passed over: the bundle stays as it is. -/
theorem returns_quiet {m : BundleProg Tree PUnit}
    (hm : m = pure ⟨⟩ ∨ ∃ fault, m = call fault) (h : Returns m b r b') : b' = b := by
  rcases hm with rfl | ⟨fault, rfl⟩
  · exact (returns_pure.mp h).2
  · exact (returns_call.mp h).2

theorem returns_reclaimOwner (h : Returns (reclaimOwner acq io) b r b') : b' = b := by
  refine returns_quiet ?_ h
  unfold reclaimOwner
  split
  · exact .inr ⟨_, rfl⟩
  · exact .inl rfl

theorem returns_shiftStagedOwners (h : Returns (shiftStagedOwners acq io) b r b') : b' = b := by
  refine returns_quiet ?_ h
  unfold shiftStagedOwners
  split
  · exact .inr ⟨_, rfl⟩
  · exact .inl rfl

theorem returns_removeRootfs (h : Returns (removeRootfs io) b r b') :
    b' = { b with rootfs := .absent } := by
  unfold removeRootfs at h
  split at h
  next => exact returns_modify.mp h
  next =>
    rw [returns_modify_bind] at h
    exact absurd h returns_throw

/-- Where there is no rootfs, the rename has put one there. -/
theorem returns_renameStaged {tree : Tree} (habsent : b.rootfs = .absent)
    (h : Returns (renameStaged io tree) b r b') : b' = { b with rootfs := .dir tree } := by
  unfold renameStaged at h
  split at h
  next => exact returns_modify.mp h
  next =>
    rw [returns_get_bind, habsent] at h
    exact absurd h returns_throw

/-- The rootfs is unpacked anew, and signed. -/
theorem returns_stageRootfs (habsent : b.rootfs = .absent)
    (h : Returns (stageRootfs acq io layers) b r b') : ∃ tree, acq.unpack layers = .ok tree ∧
      b' = { b with rootfs := .dir tree, sidecar := .holds acq.ownership } := by
  unfold stageRootfs at h
  obtain ⟨tree, htree, h⟩ := returns_accept_bind.mp h
  obtain ⟨_, b1, hmode, h⟩ := returns_bind.mp h
  obtain ⟨_, b2, howners, h⟩ := returns_bind.mp h
  obtain ⟨_, b3, hrename, h⟩ := returns_bind.mp h
  obtain ⟨-, rfl⟩ := returns_writeJson.mp h
  have hb1 : b1 = b := (returns_call.mp hmode).2
  obtain rfl : b2 = b := (returns_shiftStagedOwners howners).trans hb1
  rw [returns_renameStaged habsent hrename]
  exact ⟨tree, mapError_eq_ok.mp htree, rfl⟩

/-- **The rootfs was kept, or it is the unpack of the layers.** -/
theorem returns_ensureRootfs {path : String}
    (h : Returns (ensureRootfs acq io path layers) b r b') :
    (∃ tree, b.Reusable acq tree ∧ b' = b) ∨
      (∀ tree, ¬ b.Reusable acq tree) ∧ ∃ tree, acq.unpack layers = .ok tree ∧
        b' = { b with rootfs := .dir tree, sidecar := .holds acq.ownership } := by
  unfold ensureRootfs at h
  rw [returns_get_bind] at h
  split at h
  next => exact absurd h returns_throw
  next habsent =>
    refine .inr ⟨fun tree hreuse => ?_, returns_stageRootfs habsent h⟩
    simp [hreuse.1] at habsent
  next tree hdir =>
    split at h
    next hmatch =>
      exact .inl ⟨tree, ⟨hdir, of_decide_eq_true hmatch⟩, (returns_pure.mp h).2⟩
    next hmatch =>
      obtain ⟨_, b1, hreclaim, h⟩ := returns_bind.mp h
      obtain ⟨_, b2, hremove, h⟩ := returns_bind.mp h
      have hb2 := returns_removeRootfs hremove
      rw [returns_reclaimOwner hreclaim] at hb2
      subst hb2
      refine .inr ⟨fun tree' hreuse => hmatch (decide_eq_true hreuse.2), ?_⟩
      obtain ⟨made, hmade, rfl⟩ := returns_stageRootfs rfl h
      exact ⟨made, hmade, rfl⟩

theorem returns_writeLayers (h : Returns (writeLayers io layers) b r b') :
    b' = { b with layersTmp := .missing, layersJson := .holds (layers.map (·.digest)) } := by
  unfold writeLayers at h
  obtain ⟨_, b1, hwrite, h⟩ := returns_bind.mp h
  obtain ⟨-, rfl⟩ := returns_writeJson.mp hwrite
  obtain ⟨-, h⟩ := returns_call_bind.mp h
  exact returns_modify.mp h

theorem returns_writeProcess {config : OciImageConfig}
    (h : Returns (writeProcess acq io config) b r b') : ∃ tree process, b.rootfs = .dir tree ∧
      rootfsBundleFromOciConfig acq.reads config tree acq.config.usernsSize = .ok process ∧
      b' = { b with processJson := .holds process } := by
  unfold writeProcess at h
  rw [returns_get_bind] at h
  split at h
  next tree hdir =>
    obtain ⟨process, hprocess, h⟩ := returns_accept_bind.mp h
    exact ⟨tree, process, hdir, hprocess, (returns_writeJson.mp h).2⟩
  next => exact absurd h returns_throw

/-- The bundle after `write_bundle` and the write of `process.json`: it holds the image exactly
if there was no other rootfs to reuse. -/
theorem returns_bundle {path : String} {image : PulledImage} (h : Returns (do
      writeBundle acq io path image.layers
      writeProcess acq io image.config) b r b') : b'.HoldsImage acq image ↔
      ∀ tree, b.Reusable acq tree → acq.unpack image.layers = .ok tree := by
  obtain ⟨_, b1, hbundle, hwrite⟩ := returns_bind.mp h
  unfold writeBundle at hbundle
  obtain ⟨-, hbundle⟩ := returns_call_bind.mp hbundle
  obtain ⟨-, hbundle⟩ := returns_call_bind.mp hbundle
  obtain ⟨_, b0, hensure, hlayers⟩ := returns_bind.mp hbundle
  obtain ⟨tree, process, hdir, hprocess, rfl⟩ := returns_writeProcess hwrite
  rw [returns_writeLayers hlayers] at hdir ⊢
  change b0.rootfs = .dir tree at hdir
  constructor
  · rintro ⟨tree', process', hdir', hunpack, -⟩ kept hreuse
    -- what was reusable is what stands there now
    rcases returns_ensureRootfs hensure with ⟨_, -, rfl⟩ | ⟨hnone, -⟩
    · have hsame : Rootfs.dir kept = Rootfs.dir tree' := hreuse.1.symm.trans hdir'
      injection hsame with hsame
      rwa [hsame]
    · exact absurd hreuse (hnone kept)
  · intro hfits
    have hunpack : acq.unpack image.layers = .ok tree := by
      rcases returns_ensureRootfs hensure with ⟨kept, hreuse, rfl⟩ | ⟨-, made, hmade, rfl⟩
      · have hsame : Rootfs.dir kept = Rootfs.dir tree := hreuse.1.symm.trans hdir
        injection hsame with hsame
        rw [← hsame]
        exact hfits kept hreuse
      · injection hdir with hdir
        rwa [← hdir]
    exact ⟨tree, process, hdir, hunpack, rfl, hprocess, rfl⟩

/-! ## §2. Acquisitions that returned. -/

section
variable {a : Acquisition Tree} {dir dir' : ArtifactDir Tree}

theorem bundleAt_insert_self (dir : ArtifactDir Tree) (name : String) (b : Bundle Tree) :
    ArtifactDir.bundleAt (dir.insert name b) name = b := by
  unfold ArtifactDir.bundleAt
  rw [AList.lookup_insert]
  rfl

variable {name digest : String} {record : ArtifactRecord}

theorem bundleAt_insert_of_ne (dir : ArtifactDir Tree) {name' : String} (b : Bundle Tree)
    (hne : name' ≠ name) :
    ArtifactDir.bundleAt (dir.insert name b) name' = ArtifactDir.bundleAt dir name' := by
  unfold ArtifactDir.bundleAt
  rw [AList.lookup_insert_ne hne]

theorem returns_inBundle {α : Type} {m : BundleProg Tree α} {x : α}
    (h : Returns (inBundle name m) dir x dir') :
    ∃ b', Returns m (dir.bundleAt name) x b' ∧ dir' = dir.insert name b' := by
  unfold inBundle at h
  rw [returns_get_bind, returns_modify_bind] at h
  refine ⟨(runProg m (dir.bundleAt name)).2, ?_⟩
  cases hrun : runProg m (dir.bundleAt name) with
  | mk result =>
    rw [hrun] at h
    cases result with
    | error => exact absurd h returns_throw
    | ok =>
      obtain ⟨rfl, rfl⟩ := returns_pure.mp h
      exact ⟨hrun, rfl⟩

theorem new_eq_ok {kind : ArtifactKind} {source : ArtifactSource}
    (h : ArtifactRecord.new digest kind source = .ok record) : record.digest = digest := by
  unfold ArtifactRecord.new at h
  split at h
  next => cases h
  next =>
    injection h with h
    rw [← h]

theorem returns_materialize {image : PulledImage}
    (h : Returns (acq.materialize a digest image) dir r dir') :
    (dir'.bundleAt (safeArtifactName digest)).HoldsImage acq image ↔
      ∀ tree, (dir.bundleAt (safeArtifactName digest)).Reusable acq tree →
        acq.unpack image.layers = .ok tree := by
  obtain ⟨b', hbundle, rfl⟩ := returns_inBundle h
  rw [bundleAt_insert_self]
  exact returns_bundle hbundle

/-- An acquisition that returned had a digest text and an image, and made the bundle of the
one from the other. -/
theorem returns_acquire (h : Returns (acq.acquire a) dir record dir') :
    ∃ image, acq.imageOf a = .ok image ∧ acq.digestOf a = .ok record.digest ∧
      Returns (acq.materialize a record.digest image) dir ⟨⟩ dir' := by
  have hbuild : Returns (acq.buildAndMaterialize a) dir record dir' →
      ∃ image, acq.imageOf a = .ok image ∧ acq.digestOf a = .ok record.digest ∧
        Returns (acq.materialize a record.digest image) dir ⟨⟩ dir' := by
    intro h
    unfold Acquirer.buildAndMaterialize at h
    obtain ⟨-, h⟩ := returns_call_bind.mp h
    obtain ⟨digest, hdigest, h⟩ := returns_accept_bind.mp h
    obtain ⟨artifact, hartifact, h⟩ := returns_accept_bind.mp h
    obtain ⟨image, himage, h⟩ := returns_accept_bind.mp h
    obtain ⟨_, dir1, hmade, h⟩ := returns_bind.mp h
    obtain ⟨hrecord, rfl⟩ := returns_accept.mp h
    have hsame := new_eq_ok (mapError_eq_ok.mp hartifact)
    have hkept := new_eq_ok (mapError_eq_ok.mp hrecord)
    rw [hsame] at hkept hmade
    rw [hkept]
    exact ⟨image, mapError_eq_ok.mp himage, hdigest, hmade⟩
  unfold Acquirer.acquire at h
  split at h
  next image hrequest =>
    unfold Acquirer.pullAndUnpackExternal at h
    obtain ⟨image, himage, h⟩ := returns_accept_bind.mp h
    obtain ⟨digest, hdigest, h⟩ := returns_accept_bind.mp h
    obtain ⟨_, dir1, hmade, h⟩ := returns_bind.mp h
    obtain ⟨hrecord, rfl⟩ := returns_accept.mp h
    rw [new_eq_ok (mapError_eq_ok.mp hrecord)]
    exact ⟨image, mapError_eq_ok.mp himage, hdigest, hmade⟩
  next => exact hbuild h
  next => exact hbuild h

/-- **After any history of acquisitions, the bundle of one that returns holds its image
exactly if** the directory its digest text names offered no rootfs for reuse, or the unpack of
the image's own layers. -/
theorem bundle_holds_image_iff {history : List (Acquisition Tree)} {record : ArtifactRecord}
    (h : Returns (acq.acquire a) (acq.after history) record dir') :
    ∃ image, acq.imageOf a = .ok image ∧ acq.digestOf a = .ok record.digest ∧
      ((dir'.bundleAt (safeArtifactName record.digest)).HoldsImage acq image ↔
        ∀ tree,
          (ArtifactDir.bundleAt (acq.after history) (safeArtifactName record.digest)).Reusable acq
            tree → acq.unpack image.layers = .ok tree) := by
  obtain ⟨image, himage, hdigest, hmade⟩ := returns_acquire h
  exact ⟨image, himage, hdigest, returns_materialize hmade⟩

end

/-! ## §3. Where a rootfs comes from. -/

section
variable {P : Tree → Prop}

/-- Whatever the bundle offers for reuse meets `P`. -/
def Bundle.Offers (acq : Acquirer Tree) (P : Tree → Prop) (b : Bundle Tree) : Prop :=
  ∀ tree, b.Reusable acq tree → P tree

theorem triple_call {σ : Type} {P : σ → Prop} (fault : Option IoError) :
    Preserves P (call fault) := by
  cases fault with
  | none => exact triple_pure fun _ hs => hs
  | some => exact triple_throw fun _ hs => hs

theorem triple_writeJson {α : Type} {P Q : Bundle Tree → Prop}
    {put : JsonFile α → Bundle Tree → Bundle Tree} (hput : ∀ file b, P b → Q (put file b))
    (hkeep : ∀ b, P b → Q b) (fault : Option (IoError × Bool)) (value : α) :
    Triple P (writeJson fault put value) (fun _ => Q) Q := by
  cases fault with
  | none => exact triple_modify fun b hb => hput _ b hb
  | some =>
    refine triple_bind (triple_modify (R := fun _ => Q) fun b hb => ?_)
      fun _ => triple_throw fun _ hb => hb
    split
    · exact hput _ b hb
    · exact hkeep b hb

/-- A rootfs is signed only when it was unpacked just before. -/
theorem triple_stageRootfs (hP : ∀ tree, acq.unpack layers = .ok tree → P tree) :
    Triple (fun b => b.rootfs = .absent) (stageRootfs acq io layers)
      (fun _ => Bundle.Offers acq P) (Bundle.Offers acq P) := by
  have hnone : ∀ b : Bundle Tree, b.rootfs = .absent → b.Offers acq P := by
    intro b habsent tree hreuse
    simp [hreuse.1] at habsent
  -- from the rename on the rootfs is the unpack
  have howners : Preserves (fun b => b.rootfs = .absent) (shiftStagedOwners acq io) := by
    unfold shiftStagedOwners
    split
    · exact triple_call _
    · exact triple_pure fun _ hb => hb
  have hrename : ∀ tree, acq.unpack layers = .ok tree →
      Triple (fun b => b.rootfs = .absent) (renameStaged io tree)
        (fun _ b => b.rootfs = .dir tree) (Bundle.Offers acq P) := by
    intro tree _
    unfold renameStaged
    split
    next => exact triple_modify fun _ _ => rfl
    next e _ =>
      refine triple_bind (triple_get (R := fun a b => a = b ∧ b.rootfs = .absent)
        fun _ habsent => ⟨rfl, habsent⟩) fun b => ?_
      rintro _ ⟨rfl, habsent⟩
      rw [habsent]
      exact hnone b habsent
  refine fun b habsent => (?_ : Triple (fun b => b.rootfs = .absent) _ _ _) b habsent
  refine triple_bind ((triple_accept _).mono_error hnone) fun tree => Triple.assume fun htree => ?_
  have htree := mapError_eq_ok.mp htree
  refine triple_bind ((triple_call _).mono_error hnone) fun _ => ?_
  refine triple_bind (howners.mono_error hnone) fun _ => ?_
  refine triple_bind (hrename tree htree) fun _ => ?_
  have hown : ∀ b : Bundle Tree, b.rootfs = .dir tree → b.Offers acq P := by
    intro b hdir tree' hreuse
    rw [hreuse.1] at hdir
    injection hdir with hdir
    rw [hdir]
    exact hP tree htree
  refine triple_writeJson ?_ hown _ _
  intro file b hdir
  exact hown _ hdir

theorem triple_ensureRootfs (hP : ∀ tree, acq.unpack layers = .ok tree → P tree) (path : String) :
    Preserves (Bundle.Offers acq P) (ensureRootfs acq io path layers) := by
  -- a bundle whose sidecar does not match offers nothing, whatever stands at its rootfs
  have hunsigned : ∀ b : Bundle Tree, acq.sidecarMatches b = false → b.Offers acq P := by
    intro b hmatch tree hreuse
    exact absurd (decide_eq_true hreuse.2) (Bool.eq_false_iff.mp hmatch)
  have hremove : Triple (fun b => acq.sidecarMatches b = false) (removeRootfs io)
      (fun _ b => b.rootfs = .absent) (Bundle.Offers acq P) := by
    unfold removeRootfs
    split
    · exact triple_modify fun _ _ => rfl
    · exact triple_bind (triple_modify (R := fun _ => Bundle.Offers acq P)
        fun b hmatch => hunsigned _ hmatch) fun _ => triple_throw fun _ hb => hb
  have hreclaim : Preserves (fun b => acq.sidecarMatches b = false) (reclaimOwner acq io) := by
    unfold reclaimOwner
    split
    · exact triple_call _
    · exact triple_pure fun _ hb => hb
  refine triple_bind (triple_get (R := fun b b' => b'.Offers acq P ∧ b' = b)
    fun b hb => ⟨hb, rfl⟩) fun b => ?_
  split
  next => exact triple_throw fun _ hb => hb.1
  next habsent =>
    refine (triple_stageRootfs hP).conseq (fun b' hb => ?_) fun _ _ hb => hb
    rwa [hb.2]
  next tree hdir =>
    split
    next => exact triple_pure fun _ hb => hb.1
    next hmatch =>
      refine Triple.conseq (triple_bind (hreclaim.mono_error hunsigned) fun _ =>
        triple_bind hremove fun _ => triple_stageRootfs hP) (fun b' hb => ?_) fun _ _ hb => hb
      rw [hb.2]
      exact Bool.eq_false_iff.mpr hmatch

theorem triple_writeLayers : Preserves (Bundle.Offers acq P) (writeLayers io layers) := by
  refine triple_bind (triple_writeJson (Q := Bundle.Offers acq P) ?_ (fun _ hb => hb) _ _) fun _ =>
    triple_bind (triple_call _) fun _ => triple_modify fun _ hb => hb
  exact fun _ _ hb => hb

theorem triple_writeProcess (config : OciImageConfig) :
    Preserves (Bundle.Offers acq P) (writeProcess acq io config) := by
  refine triple_bind (triple_get (R := fun _ => Bundle.Offers acq P) fun _ hb => hb) fun b => ?_
  split
  · refine preserves_accept fun process _ => triple_writeJson ?_ (fun _ hb => hb) _ _
    exact fun _ _ hb => hb
  · exact triple_throw fun _ hb => hb

end

/-- An acquisition of the history unpacked this tree, for a digest text of this name. -/
def Origin (acq : Acquirer Tree) (history : List (Acquisition Tree)) (name : String)
    (tree : Tree) : Prop :=
  ∃ a ∈ history, ∃ image digest, acq.imageOf a = .ok image ∧ acq.digestOf a = .ok digest ∧
    safeArtifactName digest = name ∧ acq.unpack image.layers = .ok tree

/-- Whatever a bundle of the directory offers for reuse has an origin. -/
def Sourced (acq : Acquirer Tree) (history : List (Acquisition Tree)) (dir : ArtifactDir Tree) :
    Prop :=
  ∀ name, (dir.bundleAt name).Offers acq (Origin acq history name)

section
variable {history : List (Acquisition Tree)} {a : Acquisition Tree}

theorem triple_inBundle {α : Type} {name : String} {m : BundleProg Tree α}
    (hm : Preserves (Bundle.Offers acq (Origin acq history name)) m) :
    Preserves (Sourced acq history) (inBundle name m) := by
  intro dir hdir
  have hsourced : Sourced acq history
      (dir.insert name (runProg m (dir.bundleAt name)).2) := by
    intro name'
    by_cases hne : name' = name
    · rw [hne, bundleAt_insert_self]
      exact hm.state (hdir name)
    · rw [bundleAt_insert_of_ne dir _ hne]
      exact hdir name'
  exact ((triple_accept (runProg m (dir.bundleAt name)).1).post fun _ _ h => h.1) _ hsourced

theorem triple_materialize {digest : String} {image : PulledImage} (ha : a ∈ history)
    (himage : acq.imageOf a = .ok image) (hdigest : acq.digestOf a = .ok digest) :
    Preserves (Sourced acq history) (acq.materialize a digest image) := by
  have hP : ∀ tree, acq.unpack image.layers = .ok tree →
      Origin acq history (safeArtifactName digest) tree :=
    fun tree htree => ⟨a, ha, image, digest, himage, hdigest, rfl, htree⟩
  refine triple_inBundle (triple_bind ?_ fun _ => triple_writeProcess _)
  exact triple_bind (triple_call _) fun _ => triple_bind (triple_call _) fun _ =>
    triple_bind (triple_ensureRootfs hP _) fun _ => triple_writeLayers

theorem triple_acquire (ha : a ∈ history) : Preserves (Sourced acq history) (acq.acquire a) := by
  have hrecord : ∀ made : Except ArtifactAcquireError ArtifactRecord,
      Preserves (Sourced acq history) (accept made) :=
    fun made => (triple_accept made).post fun _ _ h => h.1
  have hbuild : Preserves (Sourced acq history) (acq.buildAndMaterialize a) := by
    refine triple_bind (triple_call _) fun _ => ?_
    refine preserves_accept fun digest hdigest => preserves_accept fun artifact hartifact =>
      preserves_accept fun image himage => ?_
    refine triple_bind (triple_materialize ha (mapError_eq_ok.mp himage) ?_) fun _ => hrecord _
    rw [new_eq_ok (mapError_eq_ok.mp hartifact)]
    exact hdigest
  unfold Acquirer.acquire
  split
  next =>
    refine preserves_accept fun image himage => preserves_accept fun digest hdigest => ?_
    exact triple_bind (triple_materialize ha (mapError_eq_ok.mp himage) hdigest) fun _ => hrecord _
  next => exact hbuild
  next => exact hbuild

theorem Sourced.mono {history' : List (Acquisition Tree)} {dir : ArtifactDir Tree}
    (h : Sourced acq history dir) (hsub : history ⊆ history') : Sourced acq history' dir := by
  intro name tree hreuse
  obtain ⟨a, ha, horigin⟩ := h name tree hreuse
  exact ⟨a, hsub ha, horigin⟩

theorem after_concat (history : List (Acquisition Tree)) (a : Acquisition Tree) :
    acq.after (history ++ [a]) = (runProg (acq.acquire a) (acq.after history)).2 := by
  unfold Acquirer.after
  rw [List.foldl_append]
  rfl

/-- **A rootfs that can be reused was unpacked by an earlier acquisition whose digest text has
the same file name.** -/
theorem reusable_origin (history : List (Acquisition Tree)) :
    Sourced acq history (acq.after history) := by
  induction history using List.reverseRecOn with
  | nil =>
    intro name tree hreuse
    cases hreuse.1
  | append_singleton history a ih =>
    rw [after_concat]
    exact (triple_acquire (List.mem_append_right history (List.mem_singleton_self a))).state
      (ih.mono (List.subset_append_left _ _))

end

/-! ## §4. Digests as names. -/

theorem safeChar_of_isAlphanum {c : Char} (h : c.isAlphanum = true) : safeChar c = c := by
  unfold safeChar
  rw [if_pos (.inl h)]

/-- Of the characters that file names merge, a digest has only the one colon. -/
theorem safeArtifactName_inj_sha256 {cx : Codec} {bytes bytes' : Bytes}
    (h : safeArtifactName (cx.sha256 bytes) = safeArtifactName (cx.sha256 bytes')) :
    cx.sha256 bytes = cx.sha256 bytes' := by
  have hplain : ∀ hex : List Char, (∀ c ∈ hex, c.isAlphanum = true) →
      hex.map safeChar = hex := by
    intro hex hhex
    rw [List.map_congr_left fun c hc => safeChar_of_isAlphanum (hhex c hc), List.map_id']
  obtain ⟨hex, hform, hhex⟩ := cx.sha256_form bytes
  obtain ⟨hex', hform', hhex'⟩ := cx.sha256_form bytes'
  have hlist := congrArg String.toList h
  simp only [safeArtifactName, String.toList_ofList, hform, hform', List.map_append,
    hplain hex hhex, hplain hex' hhex'] at hlist
  apply String.toList_inj.mp
  rw [hform, hform', List.append_cancel_left hlist]

theorem sha256_ne_empty (cx : Codec) (bytes : Bytes) : cx.sha256 bytes ≠ "" := by
  obtain ⟨hex, hform, -⟩ := cx.sha256_form bytes
  intro hempty
  rw [hempty] at hform
  cases hform

/-- The digest text is the digest of the image's own manifest: what a pull has, and what a
build has that prints it. -/
def SelfNamed (acq : Acquirer Tree) (a : Acquisition Tree) : Prop :=
  match a.request with
  | .externalImage image => ∀ pulled, a.pull image = .ok pulled → OfManifest acq.cx pulled
  | _ => ∀ image digest, acq.imageOf a = .ok image → acq.digestOf a = .ok digest →
      digest = image.digest

theorem SelfNamed.spec {a : Acquisition Tree} (h : SelfNamed acq a) {image : PulledImage}
    {digest : String} (himage : acq.imageOf a = .ok image) (hdigest : acq.digestOf a = .ok digest) :
    OfManifest acq.cx image ∧ digest = image.digest := by
  unfold SelfNamed at h
  split at h
  next reference hrequest =>
    unfold Acquirer.imageOf at himage
    unfold Acquirer.digestOf at hdigest
    rw [hrequest] at himage hdigest
    have hof := h image himage
    obtain ⟨pulled, hpulled, hdigest⟩ := bind_eq_ok.mp hdigest
    obtain rfl : image = pulled :=
      Except.ok.inj (himage.symm.trans (mapError_eq_ok.mp hpulled))
    refine ⟨hof, ?_⟩
    obtain ⟨bytes, _, _, hbytes, -⟩ := hof
    rw [if_neg (hbytes ▸ sha256_ne_empty acq.cx bytes)] at hdigest
    injection hdigest with hdigest
    exact hdigest.symm
  next hbuild =>
    refine ⟨?_, h image digest himage hdigest⟩
    unfold Acquirer.imageOf at himage
    split at himage
    next reference hrequest => exact absurd hrequest (hbuild reference)
    next => exact readOciLayout_ofManifest himage

/-- **Images named by their own digests are never mixed up**, as long as SHA-256 has no
collisions. -/
theorem bundle_holds_image_by_digest (hinj : Function.Injective acq.cx.sha256)
    {history : List (Acquisition Tree)} {a : Acquisition Tree} {record : ArtifactRecord}
    {dir' : ArtifactDir Tree} (hnamed : ∀ b ∈ history, SelfNamed acq b) (ha : SelfNamed acq a)
    (h : Returns (acq.acquire a) (acq.after history) record dir') :
    ∃ image, acq.imageOf a = .ok image ∧
      (dir'.bundleAt (safeArtifactName record.digest)).HoldsImage acq image := by
  obtain ⟨image, himage, hdigest, hmade⟩ := returns_acquire h
  refine ⟨image, himage, (returns_materialize hmade).mpr fun tree hreuse => ?_⟩
  -- whoever unpacked the tree had a digest of the same file name, so the same image
  obtain ⟨b, hb, image', digest', himage', hdigest', hname, htree⟩ :=
    reusable_origin history _ tree hreuse
  obtain ⟨hof, hown⟩ := ha.spec himage hdigest
  obtain ⟨hof', hown'⟩ := (hnamed b hb).spec himage' hdigest'
  have hsame : image'.digest = image.digest := by
    obtain ⟨bytes, _, _, hbytes, -⟩ := hof
    obtain ⟨bytes', _, _, hbytes', -⟩ := hof'
    rw [hown', hown, ← hbytes, ← hbytes'] at hname
    rw [← hbytes, ← hbytes']
    exact safeArtifactName_inj_sha256 hname
  rw [← hof'.unique hinj hof hsame]
  exact htree

end

/-! ## §5. Two builds. -/

/-- `TarRootfsUnpacker`, on a machine with nothing else on it. -/
def tarRootfsUnpacker (decode : PulledLayer → LayerBlob) (layers : List PulledLayer) :
    Except OciError Host :=
  match runProg (unpack ["rootfs"] true (layers.map decode)) (Unpacker.start bareHost) with
  | (.ok _, s) => .ok s.host
  | (.error e, _) => .error e

/-- Paths below the rootfs, looked up on that machine. -/
def hostReads : RootfsReads Host where
  readToString h path :=
    match h.resolve (ofNames ["rootfs"] ++ (PathText.parse path).comps) with
    | .error e => .error (Errno.toIo e)
    | .ok p =>
        match (h.node p).map Node.kind with
        | some (.file bytes) =>
            ((String.fromUTF8? ⟨bytes.toArray⟩).map Except.ok).getD
              (.error ⟨.invalidData, "stream did not contain valid UTF-8"⟩)
        | _ => .error (Errno.toIo .isdir)
  isExecutable h path :=
    match h.resolve (ofNames ["rootfs"] ++ (PathText.parse path).comps) with
    | .error _ => false
    | .ok p => (h.node p).any fun n => !n.isDir && n.mode &&& 0o111 != 0

/-- The text of an upload id. -/
def uploadText : String := "00000000-0000-0000-0000-000000000001"

/-- The one file `a` of a layer has the bytes of the layer in it. -/
def exampleAcquirer : Acquirer Host where
  config := ⟨["srv", "artifacts"], ["srv", "uploads"], "git", "buildctl", 100000, 65536⟩
  cx := exampleCodec
  parseUuid text := if text = uploadText then some text else none
  unpack := tarRootfsUnpacker fun layer => layerOf [fileAt "a" layer.bytes]
  reads := hostReads
  capChown := true

/-- An upload build that prints `printed` and writes the layout of an image. -/
def buildOf (printed : String) (image : OneLayer) : Acquisition Host where
  request := .upload uploadText "Dockerfile" "."
  buildId := "b"
  checkoutId := "c"
  createOutputDir := none
  createCheckout := none
  host := bareHost
  run _ _ := .ok ⟨0, printed, ""⟩
  layout := exampleLayout image
  pull _ := .error (.pull "offline")
  io := .fine

/-- What is at a path of the rootfs. -/
def Rootfs.kindAt (rootfs : Rootfs Host) (p : List String) : Option Kind :=
  match rootfs with
  | .dir h => viewOf ["rootfs"] h p
  | _ => none

/-- The image of an acquisition, and the file `a` of its own unpack. -/
def ownFile (a : Acquisition Host) : Option (Option Kind) :=
  (exampleAcquirer.imageOf a).toOption.bind fun image =>
    (exampleAcquirer.unpack image.layers).toOption.map fun h => viewOf ["rootfs"] h ["a"]

/-- A bundle with another file `a` than the image's own does not hold the image. -/
theorem not_holdsImage_of_file {a : Acquisition Host} {b : Bundle Host} {k : Option Kind}
    (hown : ownFile a = some k) (hfile : b.rootfs.kindAt ["a"] ≠ k) :
    ∃ image, exampleAcquirer.imageOf a = .ok image ∧ ¬ b.HoldsImage exampleAcquirer image := by
  unfold ownFile at hown
  cases himage : exampleAcquirer.imageOf a with
  | error =>
    rw [himage] at hown
    cases hown
  | ok image =>
    refine ⟨image, rfl, ?_⟩
    rintro ⟨tree, process, hdir, hunpack, -⟩
    rw [himage] at hown
    change ((exampleAcquirer.unpack image.layers).toOption.map
      fun h => viewOf ["rootfs"] h ["a"]) = some k at hown
    rw [hunpack] at hown
    rw [hdir] at hfile
    exact hfile (Option.some.inj hown)

/-- The bundle that both builds print the name of. -/
def rebuilt : Bundle Host :=
  ArtifactDir.bundleAt
    (exampleAcquirer.after [buildOf "built\n" abImage, buildOf "built\n" cImage]) "built"

/-- **A bundle holds another image.**  Two builds print the same text; the second returns with
the rootfs of the first, and `layers.json` describes the second. -/
theorem second_build_keeps_first_rootfs :
    (runProg (exampleAcquirer.acquire (buildOf "built\n" abImage)) ∅).1.toOption =
      some ⟨"built", .rootfsBundle, .uploadedContext uploadText "Dockerfile" "."⟩ ∧
    (runProg (exampleAcquirer.acquire (buildOf "built\n" cImage))
      (exampleAcquirer.after [buildOf "built\n" abImage])).1.toOption =
      some ⟨"built", .rootfsBundle, .uploadedContext uploadText "Dockerfile" "."⟩ ∧
    ownFile (buildOf "built\n" cImage) = some (some (.file (ascii "c"))) ∧
    rebuilt.rootfs.kindAt ["a"] = some (.file (ascii "ab")) ∧
    rebuilt.layersJson = .holds [exampleSha (ascii "c")] ∧
    ∃ image, exampleAcquirer.imageOf (buildOf "built\n" cImage) = .ok image ∧
      ¬ rebuilt.HoldsImage exampleAcquirer image := by
  have hown : ownFile (buildOf "built\n" cImage) = some (some (.file (ascii "c"))) := by
    decide +kernel
  have hkept : rebuilt.rootfs.kindAt ["a"] = some (.file (ascii "ab")) := by decide +kernel
  refine ⟨by decide +kernel, by decide +kernel, hown, hkept, by decide +kernel, ?_⟩
  refine not_holdsImage_of_file hown ?_
  rw [hkept]
  decide

/-- A build under a name of its own, after another build. -/
theorem bundle_holds_image_own_name :
    ∃ record dir', Returns (exampleAcquirer.acquire (buildOf "built\n" abImage))
        (exampleAcquirer.after [buildOf "other\n" cImage]) record dir' ∧
      ∃ image, exampleAcquirer.imageOf (buildOf "built\n" abImage) = .ok image ∧
        (dir'.bundleAt (safeArtifactName record.digest)).HoldsImage exampleAcquirer image := by
  have hok : (runProg (exampleAcquirer.acquire (buildOf "built\n" abImage))
      (exampleAcquirer.after [buildOf "other\n" cImage])).1.toOption.map (·.digest)
        = some "built" := by
    decide +kernel
  have hfree : (ArtifactDir.bundleAt (exampleAcquirer.after [buildOf "other\n" cImage])
      (safeArtifactName "built")).sidecar = .missing := by decide +kernel
  cases hrun : runProg (exampleAcquirer.acquire (buildOf "built\n" abImage))
      (exampleAcquirer.after [buildOf "other\n" cImage]) with
  | mk result dir' =>
    rw [hrun] at hok
    cases result with
    | error => cases hok
    | ok record =>
      have hdigest : record.digest = "built" := Option.some.inj hok
      obtain ⟨image, himage, -, hiff⟩ := bundle_holds_image_iff hrun
      refine ⟨record, dir', hrun, image, himage, hiff.mpr fun tree hreuse => ?_⟩
      rw [hdigest] at hreuse
      have hsigned := hreuse.2
      simp [hfree] at hsigned

/-- A build that prints the digest of its own manifest. -/
def ownBuild (image : OneLayer) : Acquisition Host := buildOf (digestOf image.name) image

theorem bundle_holds_image_printed_digest :
    ∃ record dir', Returns (exampleAcquirer.acquire (ownBuild abImage))
        (exampleAcquirer.after [ownBuild cImage]) record dir' ∧
      ∃ image, exampleAcquirer.imageOf (ownBuild abImage) = .ok image ∧
        (dir'.bundleAt (safeArtifactName record.digest)).HoldsImage exampleAcquirer image := by
  have hself : ∀ k, (exampleAcquirer.digestOf (ownBuild k)).toOption =
      (exampleAcquirer.imageOf (ownBuild k)).toOption.map (·.digest) →
      SelfNamed exampleAcquirer (ownBuild k) := by
    intro k h image digest himage hdigest
    rw [himage, hdigest] at h
    exact Option.some.inj h
  have hok : (runProg (exampleAcquirer.acquire (ownBuild abImage))
      (exampleAcquirer.after [ownBuild cImage])).1.toOption.isSome = true := by decide +kernel
  rcases hrun : runProg (exampleAcquirer.acquire (ownBuild abImage))
    (exampleAcquirer.after [ownBuild cImage]) with ⟨_ | record, dir'⟩ <;> rw [hrun] at hok
  · cases hok
  · refine ⟨record, dir', hrun, bundle_holds_image_by_digest Registry.exampleSha_injective ?_
      (hself abImage (by decide +kernel)) hrun⟩
    exact List.forall_mem_singleton.mpr (hself cImage (by decide +kernel))

end Denia.Artifacts
