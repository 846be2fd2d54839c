/-
  Denia.Artifacts.Acquirer — acquisitions, one after another: build or pull an image, and
  leave its bundle in the artifact directory (`acquire_rootfs_bundle_from_image_config`,
  `src/artifacts/acquirer.rs`).

  The bundle's directory is named after a DIGEST TEXT: of a pull the digest of the manifest, of
  a build whatever the build command printed.  A rootfs that stands there under a matching
  ownership sidecar is taken for the rootfs of the image.

  The output of the commands, the layout, the pulled image, and which call on the bundle's files
  fails are inputs; an unpacker (`OciRootfsUnpacker`) is a parameter.  Who owns the files is
  left out, and so is what a failed call leaves in a staging directory.
-/
import Denia.Artifacts.Process
import Mathlib.Data.List.AList

namespace Denia.Artifacts

open Lib Oci
open Registry (Bytes)

/-! ## §1. Bundles. -/

/-- A JSON file: not there, not to be parsed (cut off after its truncation), or with a
value. -/
inductive JsonFile (α : Type) where
  | missing
  | garbled
  | holds (value : α)
  deriving DecidableEq

/-- What `symlink_metadata` finds at `<bundle>/rootfs`. -/
inductive Rootfs (Tree : Type) where
  | absent
  | other
  | dir (tree : Tree)
  deriving DecidableEq

/-- `RootfsOwnershipSidecar`. -/
structure RootfsOwnershipSidecar where
  version : Nat
  usernsBase : Nat
  usernsSize : Nat
  deriving DecidableEq

/-- `ROOTFS_OWNERSHIP_VERSION`. -/
def rootfsOwnershipVersion : Nat := 2

/-- A directory below `artifact_dir`. -/
structure Bundle (Tree : Type) where
  rootfs : Rootfs Tree
  sidecar : JsonFile RootfsOwnershipSidecar
  layersTmp : JsonFile (List String)
  layersJson : JsonFile (List String)
  processJson : JsonFile RootfsBundleSpec

/-- A bundle directory that is not there. -/
def Bundle.empty {Tree : Type} : Bundle Tree := ⟨.absent, .missing, .missing, .missing, .missing⟩

/-- `artifact_dir`, by the names of its bundles. -/
abbrev ArtifactDir (Tree : Type) := AList fun _ : String => Bundle Tree

/-- The bundle of a name. -/
def ArtifactDir.bundleAt {Tree : Type} (dir : ArtifactDir Tree) (name : String) : Bundle Tree :=
  (dir.lookup name).getD .empty

/-- `AppConfig`, of it what is read here. -/
structure AppConfig where
  artifactDir : List String
  uploadsDir : List String
  gitBinary : String
  buildkitBinary : String
  usernsBase : Nat
  usernsSize : Nat

/-- A program on the files of one bundle. -/
abbrev BundleProg (Tree : Type) := Prog (Bundle Tree) ArtifactAcquireError

/-- A program on the artifact directory. -/
abbrev DirProg (Tree : Type) := Prog (ArtifactDir Tree) ArtifactAcquireError

/-- An acquirer, with what it uses of the machine and of other crates. -/
structure Acquirer (Tree : Type) where
  config : AppConfig
  cx : Codec
  /-- `Uuid::parse_str`, and the text of the id. -/
  parseUuid : String → Option String
  unpack : List PulledLayer → Except OciError Tree
  reads : RootfsReads Tree
  /-- `has_effective_cap_chown`. -/
  capChown : Bool

/-- Which calls on the bundle's files fail. -/
structure BundleIo (Tree : Type) where
  createBundleDir : Option IoError
  statRootfs : Option IoError
  reclaim : Option String
  /-- The error, and what is left of the rootfs. -/
  removeRootfs : Option (IoError × Rootfs Tree)
  setPermissions : Option IoError
  lchownShifted : Option String
  rename : Option IoError
  /-- The error, and whether the file was truncated before it. -/
  writeSidecar : Option (IoError × Bool)
  writeLayers : Option (IoError × Bool)
  renameLayers : Option IoError
  writeProcess : Option (IoError × Bool)

/-- Every call succeeds. -/
def BundleIo.fine {Tree : Type} : BundleIo Tree :=
  ⟨none, none, none, none, none, none, none, none, none, none, none⟩

/-! ## §2. `write_bundle`. -/

/-- `short_digest`. -/
def shortDigest (cx : Codec) (input : String) : String := cx.sha256 input.toUTF8.data.toList

/-- One character of `safe_artifact_name`. -/
def safeChar (c : Char) : Char := if c.isAlphanum ∨ c = '-' ∨ c = '_' then c else '-'

/-- `safe_artifact_name`. -/
def safeArtifactName (digest : String) : String := String.ofList (digest.toList.map safeChar)

section
variable {σ Tree : Type}

/-- `?` on a call that changes nothing we keep. -/
def call (fault : Option IoError) : Prog σ ArtifactAcquireError PUnit :=
  match fault with
  | none => pure ⟨⟩
  | some e => throw (.io e)

/-- `fs::write` of a JSON file. -/
def writeJson {α : Type} (fault : Option (IoError × Bool))
    (put : JsonFile α → Bundle Tree → Bundle Tree) (value : α) : BundleProg Tree PUnit :=
  match fault with
  | none => modify (put (.holds value))
  | some (e, truncated) => do
      modify fun b => if truncated then put .garbled b else b
      throw (.io e)

section
variable {α : Type} {s s' : σ} {r : PUnit} {fault : Option IoError}

@[simp] theorem returns_call : Returns (call fault) s r s' ↔ fault = none ∧ s' = s := by
  cases fault with
  | none => exact ⟨fun h => ⟨rfl, (returns_pure.mp h).2⟩, fun h => returns_pure.mpr ⟨rfl, h.2⟩⟩
  | some => exact ⟨fun h => absurd h returns_throw, fun h => by cases h.1⟩

@[simp] theorem returns_call_bind {a : α} {f : PUnit → Prog σ ArtifactAcquireError α} :
    Returns (call fault >>= f) s a s' ↔ fault = none ∧ Returns (f ⟨⟩) s a s' := by
  rw [returns_bind]
  constructor
  · rintro ⟨_, s1, h, hf⟩
    obtain ⟨hfault, rfl⟩ := returns_call.mp h
    exact ⟨hfault, hf⟩
  · rintro ⟨hfault, hf⟩
    exact ⟨⟨⟩, s, returns_call.mpr ⟨hfault, rfl⟩, hf⟩

end

@[simp] theorem returns_writeJson {α : Type} {fault : Option (IoError × Bool)}
    {put : JsonFile α → Bundle Tree → Bundle Tree} {value : α} {b b' : Bundle Tree} {r : PUnit} :
    Returns (writeJson fault put value) b r b' ↔ fault = none ∧ b' = put (.holds value) b := by
  cases fault with
  | none => exact ⟨fun h => ⟨rfl, returns_modify.mp h⟩, fun h => returns_modify.mpr h.2⟩
  | some =>
    refine ⟨fun h => ?_, fun h => by cases h.1⟩
    rw [writeJson, returns_modify_bind] at h
    exact absurd h returns_throw

variable (acq : Acquirer Tree) (io : BundleIo Tree)

/-- The sidecar that a rootfs of this acquirer has. -/
def Acquirer.ownership : RootfsOwnershipSidecar :=
  ⟨rootfsOwnershipVersion, acq.config.usernsBase, acq.config.usernsSize⟩

/-- `rootfs_ownership_sidecar_matches`. -/
def Acquirer.sidecarMatches (b : Bundle Tree) : Bool := b.sidecar = .holds acq.ownership

/-- `reclaim_current_process_owner_if_possible`. -/
def reclaimOwner : BundleProg Tree PUnit :=
  if acq.capChown then call (io.reclaim.map fun text => ⟨.other, text⟩) else pure ⟨⟩

/-- `remove_dir_all(&rootfs)`. -/
def removeRootfs : BundleProg Tree PUnit :=
  match io.removeRootfs with
  | none => modify fun b => { b with rootfs := .absent }
  | some (e, left) => do
      modify fun b => { b with rootfs := left }
      throw (.io e)

/-- Permissions of the staged rootfs: only a lack of permission is passed over. -/
def setStagedMode : BundleProg Tree PUnit :=
  call (io.setPermissions.filter fun e => e.kind ≠ .permissionDenied)

/-- Owners of the staged rootfs: only `Operation not permitted` is passed over. -/
def shiftStagedOwners : BundleProg Tree PUnit :=
  if acq.capChown then
    call ((io.lchownShifted.filter fun text => !containsText text "Operation not permitted").map
      fun text => ⟨.other, text⟩)
  else pure ⟨⟩

/-- The rename into place; losing to a rootfs that is already there is no failure. -/
def renameStaged (tree : Tree) : BundleProg Tree PUnit :=
  match io.rename with
  | none => modify fun b => { b with rootfs := .dir tree }
  | some e => do
      let b ← get
      match b.rootfs with
      | .absent => throw (.io e)
      | _ => call (some e |>.filter fun e => e.kind ≠ .alreadyExists)

/-- Unpack beside the rootfs, rename into place, and sign with the sidecar. -/
def stageRootfs (layers : List PulledLayer) : BundleProg Tree PUnit := do
  let tree ← accept ((acq.unpack layers).mapError .unpacker)
  setStagedMode io
  shiftStagedOwners acq io
  renameStaged io tree
  writeJson io.writeSidecar (fun file b => { b with sidecar := file }) acq.ownership

/-- `layers.json`, by way of `layers.json.tmp`. -/
def writeLayers (layers : List PulledLayer) : BundleProg Tree PUnit := do
  writeJson io.writeLayers (fun file b => { b with layersTmp := file }) (layers.map (·.digest))
  call io.renameLayers
  modify fun b => { b with layersTmp := .missing, layersJson := b.layersTmp }

/-- What becomes of the rootfs: kept, replaced, or made. -/
def ensureRootfs (path : String) (layers : List PulledLayer) : BundleProg Tree PUnit := do
  let b ← get
  match b.rootfs with
  | .other => throw (.io ⟨.invalidData, "rootfs path is not a directory: " ++ path⟩)
  | .absent => stageRootfs acq io layers
  | .dir _ =>
      if acq.sidecarMatches b then pure ⟨⟩
      else do
        reclaimOwner acq io
        removeRootfs io
        stageRootfs acq io layers

/-- `write_bundle`, in the directory of the bundle. -/
def writeBundle (path : String) (layers : List PulledLayer) : BundleProg Tree PUnit := do
  call io.createBundleDir
  -- no rootfs there is an answer, not a failure
  call (io.statRootfs.filter fun e => e.kind ≠ .notFound)
  ensureRootfs acq io path layers
  writeLayers io layers

/-- `process.json`, from the config and the rootfs that stands in the bundle. -/
def writeProcess (config : OciImageConfig) : BundleProg Tree PUnit := do
  let b ← get
  match b.rootfs with
  | .dir tree => do
      let process ← accept
        (rootfsBundleFromOciConfig acq.reads config tree acq.config.usernsSize)
      writeJson io.writeProcess (fun file b => { b with processJson := file }) process
  -- `write_bundle` has returned, so the rootfs is a directory
  | _ => throw (.io ⟨.notFound, ""⟩)

end

/-! ## §3. Acquisitions. -/

/-- `ArtifactKind`. -/
inductive ArtifactKind where
  | ociImage
  | rootfsBundle
  deriving DecidableEq

/-- `ArtifactSource`. -/
inductive ArtifactSource where
  | buildKit (repoUrl gitRef dockerfilePath contextPath : String)
  | externalRegistry (image : String)
  | uploadedContext (uploadId dockerfilePath contextPath : String)
  deriving DecidableEq

/-- `ArtifactRecord`. -/
structure ArtifactRecord where
  digest : String
  kind : ArtifactKind
  source : ArtifactSource
  deriving DecidableEq

/-- `ArtifactRecord::new`. -/
def ArtifactRecord.new (digest : String) (kind : ArtifactKind) (source : ArtifactSource) :
    Except ArtifactError ArtifactRecord :=
  if trim digest = "" then .error .emptyDigest else .ok ⟨digest, kind, source⟩

/-- `ArtifactAcquireRequest`. -/
inductive ArtifactAcquireRequest where
  | git (repoUrl gitRef dockerfilePath contextPath : String)
  | externalImage (image : String)
  | upload (uploadId dockerfilePath contextPath : String)

/-- The source a record keeps. -/
def ArtifactAcquireRequest.source : ArtifactAcquireRequest → ArtifactSource
  | .git repoUrl gitRef dockerfilePath contextPath =>
      .buildKit repoUrl gitRef dockerfilePath contextPath
  | .externalImage image => .externalRegistry image
  | .upload uploadId dockerfilePath contextPath =>
      .uploadedContext uploadId dockerfilePath contextPath

/-- `CommandOutput`. -/
structure CommandOutput where
  status : Int
  stdout : String
  stderr : String

/-- A request, and what the surroundings answer while it is served. -/
structure Acquisition (Tree : Type) where
  request : ArtifactAcquireRequest
  buildId : String
  checkoutId : String
  createOutputDir : Option IoError
  createCheckout : Option IoError
  /-- The tree in which the paths of a build are looked up. -/
  host : Host
  run : String → List String → Except CommandError CommandOutput
  /-- The output directory, after the build. -/
  layout : LayoutDir
  pull : String → Except PullerError PulledImage
  io : BundleIo Tree

/-- The path leaves the checkout. -/
def gitPathEscape (rel : String) : ArtifactAcquireError :=
  .io ⟨.invalidInput, "git build path escapes checkout: " ++ rel⟩

/-- `io::Error` of a failed call. -/
def Errno.toIo : Errno → IoError
  | .noent => ⟨.notFound, "No such file or directory"⟩
  | .exist => ⟨.alreadyExists, "File exists"⟩
  | .notempty => ⟨.directoryNotEmpty, "Directory not empty"⟩
  | .inval => ⟨.invalidInput, "Invalid argument"⟩
  | .notdir => ⟨.other, "Not a directory"⟩
  | .isdir => ⟨.other, "Is a directory"⟩
  | .loop => ⟨.other, "Too many levels of symbolic links"⟩

/-- `confine_under`. -/
def confineUnder (h : Host) (root : List String) (rel : String) :
    Except ArtifactAcquireError (List Comp) := do
  let path := PathText.parse rel
  if path.absolute ∨ Comp.up ∈ path.comps then throw (gitPathEscape rel)
  let joined := ofNames root ++ path.comps
  if h.pathExists joined then
    let canonicalRoot ← (h.resolve (ofNames root)).mapError fun e => .io (Errno.toIo e)
    let canonical ← (h.resolve joined).mapError fun e => .io (Errno.toIo e)
    if canonicalRoot.isPrefixOf canonical then pure (ofNames canonical)
    else throw (gitPathEscape rel)
  else pure joined

section
variable {Tree : Type} (acq : Acquirer Tree) (a : Acquisition Tree)

/-- Where the build puts its image. -/
def Acquirer.outputDir : List String := acq.config.artifactDir ++ ["builds", a.buildId]

/-- `runner.run(..).await?`. -/
def Acquisition.command (program : String) (args : List String) :
    Except ArtifactAcquireError CommandOutput :=
  (a.run program args).mapError .command

/-- `acquire_git`. -/
def Acquirer.acquireGit (repoUrl gitRef dockerfilePath contextPath : String) :
    Except ArtifactAcquireError String := do
  let checkout := acq.config.artifactDir ++ ["git-checkouts", a.checkoutId]
  let checkoutText := display (ofNames checkout)
  require (a.createCheckout = none) (.io (a.createCheckout.getD ⟨.other, ""⟩))
  let _ ← a.command acq.config.gitBinary
    ["clone", "--quiet", "--no-checkout", "--", repoUrl, checkoutText]
  let _ ← a.command acq.config.gitBinary ["-C", checkoutText, "checkout", "--quiet", gitRef]
  let contextDir ← confineUnder a.host checkout contextPath
  let dockerfileDir ← confineUnder a.host checkout dockerfilePath
  let output ← a.command acq.config.buildkitBinary
    ["build", "--frontend", "dockerfile.v0", "--local", "context=" ++ display contextDir,
      "--local", "dockerfile=" ++ display dockerfileDir,
      "--output", "type=oci,dest=" ++ display (ofNames (acq.outputDir a))]
  pure (trim output.stdout)

/-- `acquire_staged`. -/
def Acquirer.acquireStaged (uploadId dockerfilePath contextPath : String) :
    Except ArtifactAcquireError String := do
  let uploadUuid ← orError (acq.parseUuid uploadId) .invalidUploadId
  let staged := acq.config.uploadsDir ++ [uploadUuid, "context"]
  let contextDir ← confineUnder a.host staged contextPath
  let dockerfileFile ← confineUnder a.host staged dockerfilePath
  let dockerfileDir ← orError (parentPath dockerfileFile)
    (.io ⟨.invalidInput, "dockerfile_path has no parent: " ++ dockerfilePath⟩)
  let dockerfileName ← orError (fileName dockerfileFile)
    (.io ⟨.invalidInput, "dockerfile_path has no file name: " ++ dockerfilePath⟩)
  let output ← a.command acq.config.buildkitBinary
    ["build", "--frontend", "dockerfile.v0", "--local", "context=" ++ display contextDir,
      "--local", "dockerfile=" ++ display dockerfileDir,
      "--opt", "filename=" ++ dockerfileName,
      "--output", "type=oci,dest=" ++ display (ofNames (acq.outputDir a))]
  pure (trim output.stdout)

/-- The digest text of an acquisition: what the build printed, or what was pulled. -/
def Acquirer.digestOf : Except ArtifactAcquireError String :=
  match a.request with
  | .git repoUrl gitRef dockerfilePath contextPath =>
      acq.acquireGit a repoUrl gitRef dockerfilePath contextPath
  | .upload uploadId dockerfilePath contextPath =>
      acq.acquireStaged a uploadId dockerfilePath contextPath
  | .externalImage image => do
      let pulled ← (a.pull image).mapError .puller
      pure (if pulled.digest = "" then shortDigest acq.cx image else pulled.digest)

/-- The image of an acquisition: the layout that was written, or what was pulled. -/
def Acquirer.imageOf : Except PullerError PulledImage :=
  match a.request with
  | .externalImage image => a.pull image
  | _ => readOciLayout acq.cx a.layout

/-- Work in one bundle of the artifact directory. -/
def inBundle {α : Type} (name : String) (m : BundleProg Tree α) : DirProg Tree α := do
  let dir ← get
  modify fun dir => dir.insert name (runProg m (ArtifactDir.bundleAt dir name)).2
  accept (runProg m (ArtifactDir.bundleAt dir name)).1

/-- The bundle of a digest text: `write_bundle`, then `process.json`. -/
def Acquirer.materialize (digest : String) (image : PulledImage) : DirProg Tree PUnit :=
  inBundle (safeArtifactName digest) do
    writeBundle acq a.io
      (display (ofNames (acq.config.artifactDir ++ [safeArtifactName digest, "rootfs"])))
      image.layers
    writeProcess acq a.io image.config

/-- `build_and_materialize`. -/
def Acquirer.buildAndMaterialize : DirProg Tree ArtifactRecord := do
  call a.createOutputDir
  let digest ← accept (acq.digestOf a)
  let imageArtifact ← accept
    ((ArtifactRecord.new digest .ociImage a.request.source).mapError .artifact)
  let pulled ← accept ((acq.imageOf a).mapError .puller)
  acq.materialize a imageArtifact.digest pulled
  accept ((ArtifactRecord.new imageArtifact.digest .rootfsBundle imageArtifact.source).mapError
    .artifact)

/-- `pull_and_unpack_external`. -/
def Acquirer.pullAndUnpackExternal : DirProg Tree ArtifactRecord := do
  let pulled ← accept ((acq.imageOf a).mapError .puller)
  let digest ← accept (acq.digestOf a)
  acq.materialize a digest pulled
  accept ((ArtifactRecord.new digest .rootfsBundle a.request.source).mapError .artifact)

/-- `acquire_rootfs_bundle_from_image_config`. -/
def Acquirer.acquire : DirProg Tree ArtifactRecord :=
  match a.request with
  | .externalImage _ => acq.pullAndUnpackExternal a
  | .git .. | .upload .. => acq.buildAndMaterialize a

/-- The artifact directory after acquisitions, whatever they returned. -/
def Acquirer.after : List (Acquisition Tree) → ArtifactDir Tree
  | history => history.foldl (fun dir a => (runProg (acq.acquire a) dir).2) ∅

end

end Denia.Artifacts
